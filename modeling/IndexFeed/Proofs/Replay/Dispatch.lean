import IndexFeed.Replay.Run
import Mathlib.Data.List.Basic
import Mathlib.Data.List.Induction

/-!
# Handing events to workers

Handing out all events of a recording comes to running, for each partition that occurs, a worker of
its own over the events of that partition (`workers_eq`). A sink without a limit takes all that the
workers write (`output_run`), so that the lines of a partition are those of its worker
(`linesOf_run`).
-/

namespace IndexFeed

open Text (Bytes)

def eventsOf (p : UInt16) (events : List Event) : List Event :=
  events.filter fun e => e.partition = p

/-- Ascending numbers with `p` among them. -/
def insertPartition (p : UInt16) : List UInt16 → List UInt16
  | [] => [p]
  | q :: ps =>
    if p < q then p :: q :: ps
    else if p = q then q :: ps
    else q :: insertPartition p ps

/-- The partitions of events, in ascending order. -/
def partitionsOf (events : List Event) : List UInt16 :=
  events.foldl (fun ps e => insertPartition e.partition ps) []

/-- The worker of a partition, run over the events of the partition alone. -/
def Replay.workerOf (s : ReplaySettings) (p : UInt16) (events : List Event) : Worker :=
  Worker.run s.toRouter s.flushEvery.toNat (eventsOf p events)

def Replayed.linesOf (out : Replayed) (p : UInt16) : List Bytes := (out.output.lookup p).getD []

/-- A recording that was read to its end is nothing but its events. -/
theorem Recording.eq_of_read {recording : Recording} {events : List Event}
    (h : (recording.error.isNone, recording.events) = (true, events)) :
    recording = ⟨events, none⟩ := by
  obtain ⟨hnone, hevents⟩ := Prod.mk.inj h
  cases recording
  cases Option.isNone_iff_eq_none.1 hnone
  cases hevents
  rfl

/-! ### Partitions -/

@[simp] theorem mem_insertPartition {p q : UInt16} {ps : List UInt16} :
    q ∈ insertPartition p ps ↔ q = p ∨ q ∈ ps := by
  induction ps with
  | nil => simp [insertPartition]
  | cons q' ps ih =>
    unfold insertPartition
    split
    · simp
    · split
      · next heq => simp [heq]
      · simp [ih, or_left_comm]

theorem pairwise_insertPartition {p : UInt16} {ps : List UInt16} (h : ps.Pairwise (· < ·)) :
    (insertPartition p ps).Pairwise (· < ·) := by
  induction ps with
  | nil => simp [insertPartition]
  | cons q ps ih =>
    obtain ⟨hq, hps⟩ := List.pairwise_cons.1 h
    unfold insertPartition
    split
    · next hlt =>
      refine List.pairwise_cons.2 ⟨fun q' hq' => ?_, h⟩
      rcases List.mem_cons.1 hq' with rfl | hq'
      · exact hlt
      · exact UInt16.lt_trans hlt (hq q' hq')
    · next hge =>
      split
      · exact h
      · next hne =>
        refine List.pairwise_cons.2 ⟨fun q' hq' => ?_, ih hps⟩
        rcases mem_insertPartition.1 hq' with rfl | hq'
        · exact UInt16.lt_of_le_of_ne (UInt16.not_lt.1 hge) (Ne.symm hne)
        · exact hq q' hq'

theorem partitionsOf_append (events : List Event) (e : Event) :
    partitionsOf (events ++ [e]) = insertPartition e.partition (partitionsOf events) := by
  simp [partitionsOf, List.foldl_append]

theorem pairwise_partitionsOf (events : List Event) : (partitionsOf events).Pairwise (· < ·) := by
  induction events using List.reverseRecOn with
  | nil => exact .nil
  | append_singleton events e ih =>
    rw [partitionsOf_append]
    exact pairwise_insertPartition ih

theorem nodup_partitionsOf (events : List Event) : (partitionsOf events).Nodup :=
  (pairwise_partitionsOf events).imp UInt16.ne_of_lt

theorem eventsOf_append (p : UInt16) (events : List Event) (e : Event) :
    eventsOf p (events ++ [e]) = eventsOf p events ++ if e.partition = p then [e] else [] := by
  by_cases h : e.partition = p <;> simp [eventsOf, h]

theorem mem_partitionsOf {p : UInt16} {events : List Event} :
    p ∈ partitionsOf events ↔ eventsOf p events ≠ [] := by
  induction events using List.reverseRecOn with
  | nil => simp [partitionsOf, eventsOf]
  | append_singleton events e ih =>
    rw [partitionsOf_append, mem_insertPartition, ih, eventsOf_append]
    by_cases h : e.partition = p
    · simp [h]
    · simp [h, Ne.symm h]

theorem eventsOf_eq_nil {p : UInt16} {events : List Event} (h : p ∉ partitionsOf events) :
    eventsOf p events = [] :=
  not_not.1 (mt mem_partitionsOf.2 h)

/-! ### Workers -/

namespace Replay

/-- Handing an event out leaves all workers but that of its partition as they are. A partition
without a worker is as good as one whose worker has done nothing. -/
theorem hand_map (r : Router) (every : Nat) (e : Event) {ps : List UInt16} {f : UInt16 → Worker}
    (hps : ps.Pairwise (· < ·)) (hf : e.partition ∉ ps → f e.partition = {}) :
    hand r every e (ps.map fun p => (p, f p)) =
      (insertPartition e.partition ps).map fun p =>
        (p, if e.partition = p then Worker.step r every (f p) e else f p) := by
  induction ps with
  | nil => simp [hand, insertPartition, hf]
  | cons q ps ih =>
    obtain ⟨hq, hps⟩ := List.pairwise_cons.1 hps
    -- the workers of all other partitions are left as they are
    have hothers : ∀ qs : List UInt16, e.partition ∉ qs →
        (qs.map fun p => (p, if e.partition = p then Worker.step r every (f p) e else f p)) =
          qs.map fun p => (p, f p) := by
      intro qs hqs
      refine List.map_congr_left fun p hp => ?_
      rw [if_neg fun heq : e.partition = p => hqs (heq ▸ hp)]
    rw [List.map_cons]
    unfold hand insertPartition
    split
    · next hlt =>
      have hnew : e.partition ∉ q :: ps := by
        intro hmem
        rcases List.mem_cons.1 hmem with rfl | hmem
        · exact UInt16.lt_irrefl _ hlt
        · exact UInt16.lt_asymm hlt (hq _ hmem)
      rw [List.map_cons, hothers _ hnew, if_pos rfl, hf hnew, List.map_cons]
    · split
      · next heq =>
        have hrest : e.partition ∉ ps := fun hmem => UInt16.lt_irrefl _ (heq ▸ hq _ hmem)
        rw [List.map_cons, hothers _ hrest, if_pos heq]
      · next hne =>
        rw [List.map_cons, if_neg hne, ih hps fun hmem => hf (by simp [hne, hmem])]

/-- **Each partition has a worker of its own.** -/
theorem workers_eq (s : ReplaySettings) (events : List Event) :
    workers s events = (partitionsOf events).map fun p => (p, workerOf s p events) := by
  have htable : events.foldl (fun ws e => hand s.toRouter s.flushEvery.toNat e ws) [] =
      (partitionsOf events).map fun p =>
        (p, (eventsOf p events).foldl (Worker.step s.toRouter s.flushEvery.toNat) {}) := by
    induction events using List.reverseRecOn with
    | nil => rfl
    | append_singleton events e ih =>
      have hidle : e.partition ∉ partitionsOf events →
          (eventsOf e.partition events).foldl
            (Worker.step s.toRouter s.flushEvery.toNat) {} = {} := by
        intro hmem
        rw [eventsOf_eq_nil hmem, List.foldl_nil]
      rw [List.foldl_append, ih, List.foldl_cons, List.foldl_nil,
        hand_map _ _ _ (pairwise_partitionsOf events) hidle, partitionsOf_append]
      refine List.map_congr_left fun p _ => ?_
      rw [eventsOf_append]
      split <;> simp
  rw [workers, htable, List.map_map]
  rfl

end Replay

/-! ### Lines -/

theorem Sink.take_unlimited (used : Nat) (lines : List Bytes) :
    ({} : Sink).take used lines = (lines, none) := by
  induction lines generalizing used with
  | nil => rfl
  | cons line lines ih => simp [take, fits, ih]

theorem filter_flatMap_labelled {α : Type} (g : UInt16 → List α) {ps : List UInt16}
    (hps : ps.Nodup) {p : UInt16} (hp : p ∈ ps) :
    ((ps.flatMap fun q => (g q).map fun x => (q, x)).filter (·.1 = p)).map (·.2) = g p := by
  induction ps with
  | nil => cases hp
  | cons q ps ih =>
    obtain ⟨hq, hps⟩ := List.nodup_cons.1 hps
    have hnone : ∀ q, q ≠ p → ((g q).map fun x => (q, x)).filter (·.1 = p) = [] := by
      intro q hne
      simp [hne]
    rw [List.flatMap_cons, List.filter_append, List.map_append]
    rcases List.mem_cons.1 hp with rfl | hp
    · have hrest : ((ps.flatMap fun q => (g q).map fun x => (q, x)).filter (·.1 = p)) = [] := by
        rw [List.filter_flatMap, List.flatMap_eq_nil_iff]
        exact fun q' hq' => hnone q' fun heq => hq (heq ▸ hq')
      simp [hrest, List.filter_map, Function.comp_def]
    · rw [hnone q fun heq => hq (heq ▸ hp), ih hps hp, List.map_nil, List.nil_append]

theorem lookup_labelled {α : Type} (g : UInt16 → α) (ps : List UInt16) (p : UInt16) :
    (ps.map fun q => (q, g q)).lookup p = if p ∈ ps then some (g p) else none := by
  split
  · next hp => exact List.lookup_graph g hp
  · next hp =>
    rw [List.lookup_eq_none_iff]
    rintro _ hmem
    obtain ⟨q, hq, rfl⟩ := List.mem_map.1 hmem
    exact bne_iff_ne.2 fun heq : p = q => hp (heq ▸ hq)

theorem lookup_filter_labelled {α : Type} (g : UInt16 → List α) {ps : List UInt16} {p : UInt16}
    (hp : p ∉ ps → g p = []) :
    (((ps.map fun q => (q, g q)).filter (!·.2.isEmpty)).lookup p).getD [] = g p := by
  rw [List.filter_map, lookup_labelled]
  split
  · rfl
  · next hnot =>
    by_cases hmem : p ∈ ps
    · have hempty : (g p).isEmpty = true := by simpa [hmem] using hnot
      exact (List.isEmpty_iff.1 hempty).symm
    · exact (hp hmem).symm

namespace Replay

theorem deliver_unlimited (work : List (UInt16 × Worker)) :
    deliver {} work =
      ((work.map fun (p, _) =>
        (p, ((work.flatMap fun (p, w) => w.lines.map fun line => (p, line.print)).filter
          (·.1 = p)).map (·.2))).filter (!·.2.isEmpty), none) := by
  simp only [deliver, Sink.take_unlimited, List.length_map, List.take_length]

variable (s : ReplaySettings) (recording : Recording)

/-- **What a replay writes** is what its workers write, partitions without a line left out. -/
theorem output_run :
    (run s recording {}).output =
      ((partitionsOf recording.events).map fun p =>
        (p, (workerOf s p recording.events).lines.map OutputLine.print)).filter (!·.2.isEmpty) := by
  have hlines : ((workers s recording.events).flatMap fun (p, w) =>
      w.lines.map fun line => (p, line.print)) =
        (partitionsOf recording.events).flatMap fun p =>
          ((workerOf s p recording.events).lines.map OutputLine.print).map fun x => (p, x) := by
    simp [workers_eq, List.flatMap_map, Function.comp_def]
  have hall : (run s recording {}).output =
      (deliver {} (workers s recording.events)).1 := rfl
  rw [hall, deliver_unlimited, hlines, workers_eq, List.map_map]
  refine congrArg (List.filter _) ?_
  refine List.map_congr_left fun p hp => ?_
  exact congrArg (p, ·) (filter_flatMap_labelled _ (nodup_partitionsOf _) hp)

theorem workerOf_of_not_mem {s : ReplaySettings} {p : UInt16} {events : List Event}
    (h : p ∉ partitionsOf events) : (workerOf s p events).lines = [] := by
  rw [workerOf, eventsOf_eq_nil h]
  rfl

/-- The lines of a partition are those of its worker; without events there are none. -/
theorem linesOf_run (p : UInt16) :
    (run s recording {}).linesOf p =
      (workerOf s p recording.events).lines.map OutputLine.print := by
  rw [Replayed.linesOf, output_run]
  refine lookup_filter_labelled
    (fun p => (workerOf s p recording.events).lines.map OutputLine.print) fun hp => ?_
  rw [workerOf_of_not_mem hp, List.map_nil]

theorem stats_run (h : recording.error = none) :
    (run s recording {}).stats =
      .ok (.sum ((partitionsOf recording.events).map fun p =>
        (workerOf s p recording.events).stats)) := by
  simp only [run, deliver_unlimited, h, outcome, workers_eq, List.map_map]
  rfl

end Replay

end IndexFeed
