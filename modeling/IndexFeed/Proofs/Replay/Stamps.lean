import IndexFeed.Proofs.Replay.Delivery
import IndexFeed.Proofs.Replay.Log
import IndexFeed.Proofs.Replay.Partitions

/-!
# The stamps of batches

A record keeps the stamp that it began with, so an entry that comes later stands under a stamp that
was not made for it. That stamp is right all the same if a partition changes its epoch at control
events only (`batch_stamps`), for these make the worker write everything out. The invariant is that
all a worker holds came in under one stamp, that of a change since which there was no control event
(`Worker.Stamps`).
-/

namespace IndexFeed

open Text (Bytes)

/-- Changes of documents with no control event between them carry the same epoch. -/
def EpochsSteady (events : List Event) : Prop :=
  ∀ before u between v after, events = before ++ u :: between ++ v :: after →
    u.opcode.isData = true → v.opcode.isData = true →
    (∀ e ∈ between, e.opcode.isControl = false) → u.epoch = v.epoch

/-- The changes ahead of the first control event carry the epoch `epoch`. -/
def EpochFrom (epoch : UInt64) (events : List Event) : Prop :=
  ∀ between v after, events = between ++ v :: after → v.opcode.isData = true →
    (∀ e ∈ between, e.opcode.isControl = false) → epoch = v.epoch

/-- The entries for the endpoint `a` in a line, each with the stamp of its record. -/
def OutputLine.stampedFor (a : Address) : OutputLine → List (Stamp × Entry)
  | batch endpoint record => if endpoint = a then record.entries.map (record.stamp, ·) else []
  | lifecycle _ => []

/-- The entries for the endpoint `a` in lines, each with the stamp of its record. -/
def stampedIn (a : Address) (lines : List OutputLine) : List (Stamp × Entry) :=
  lines.flatMap (OutputLine.stampedFor a)

/-- The entries for `a` among postings, each with its own stamp. -/
def stampedTo (a : Address) (xs : List Posting) : List (Stamp × Entry) :=
  (xs.filter (·.address = a)).map fun x => (x.stamp, x.entry)

/-- The entries for `a` that an event appended, each with the stamp of the event. -/
def Handling.stamped (source : String) (a : Address) (u : Handling) : List (Stamp × Entry) :=
  (u.appended a).map (u.event.stamp source, ·)

/-- Postings come under one stamp, that of a change since which there was no control event. -/
def Current (source : String) (events : List Event) (xs : List Posting) : Prop :=
  xs = [] ∨ ∃ before u after, events = before ++ u :: after ∧ u.opcode.isData = true ∧
    (∀ e ∈ after, e.opcode.isControl = false) ∧ ∀ x ∈ xs, x.stamp = u.stamp source

/-- The stamps of a worker that has consumed `events` and has logged `log`: those of the entries
that it wrote, and of the entries that it still has to write, are those of the events. -/
structure Worker.Stamps (r : Router) (events : List Event) (log : List Handling)
    (pending : List Posting) (w : Worker) : Prop where
  accumulator : w.accumulator = Accumulator.empty.putAll pending
  stamped : ∀ a, stampedIn a w.lines ++ stampedTo a pending =
    log.flatMap (Handling.stamped r.source a)
  current : Current r.source events pending

/-! ### Steady epochs -/

section Steady

variable {e : Event} {events : List Event} {epoch : UInt64}

theorem epochFrom_nil (epoch : UInt64) : EpochFrom epoch [] := by
  intro between v after heq
  simp at heq

theorem epochsSteady_nil : EpochsSteady [] := by
  intro before u between v after heq
  simp at heq

theorem epochFrom_cons :
    EpochFrom epoch (e :: events) ↔ (e.opcode.isData = true → epoch = e.epoch) ∧
      (e.opcode.isControl = false → EpochFrom epoch events) := by
  constructor
  · refine fun h => ⟨fun hdata => h [] e events rfl hdata nofun, fun hcontrol => ?_⟩
    intro between v after heq hv hbetween
    exact h (e :: between) v after (congrArg (e :: ·) heq) hv
      (List.forall_mem_cons.2 ⟨hcontrol, hbetween⟩)
  · rintro ⟨hdata, hrest⟩ between v after heq hv hbetween
    cases between with
    | nil =>
      obtain ⟨rfl, -⟩ := List.cons.inj heq
      exact hdata hv
    | cons b between =>
      obtain ⟨rfl, hevents⟩ := List.cons.inj heq
      obtain ⟨hcontrol, hbetween⟩ := List.forall_mem_cons.1 hbetween
      exact hrest hcontrol between v after hevents hv hbetween

theorem epochsSteady_cons :
    EpochsSteady (e :: events) ↔
      (e.opcode.isData = true → EpochFrom e.epoch events) ∧ EpochsSteady events := by
  constructor
  · refine fun h => ⟨fun hdata between v after heq hv hbetween => ?_,
      fun before u between v after heq => ?_⟩
    · exact h [] e between v after (congrArg (e :: ·) heq) hdata hv hbetween
    · exact h (e :: before) u between v after (congrArg (e :: ·) heq)
  · rintro ⟨hfirst, hrest⟩ before u between v after heq hu hv hbetween
    cases before with
    | nil =>
      obtain ⟨rfl, hevents⟩ := List.cons.inj heq
      exact hfirst hu between v after hevents hv hbetween
    | cons b before =>
      obtain ⟨rfl, hevents⟩ := List.cons.inj heq
      exact hrest before u between v after hevents hu hv hbetween

instance decidableEpochFrom (epoch : UInt64) : ∀ events, Decidable (EpochFrom epoch events)
  | [] => isTrue (epochFrom_nil epoch)
  | e :: events =>
    have := decidableEpochFrom epoch events
    decidable_of_iff _ (epochFrom_cons (e := e)).symm

instance decidableEpochsSteady : ∀ events, Decidable (EpochsSteady events)
  | [] => isTrue epochsSteady_nil
  | e :: events =>
    have := decidableEpochsSteady events
    decidable_of_iff _ (epochsSteady_cons (e := e)).symm

end Steady

theorem EpochsSteady.of_append {events events' : List Event}
    (h : EpochsSteady (events ++ events')) : EpochsSteady events := by
  intro before u between v after heq
  refine h before u between v (after ++ events') ?_
  rw [heq, List.append_assoc, List.cons_append]

/-! ### Stamps of lines -/

section Lines

variable (a : Address)

@[simp] theorem stampedIn_append (xs ys : List OutputLine) :
    stampedIn a (xs ++ ys) = stampedIn a xs ++ stampedIn a ys :=
  List.flatMap_append

@[simp] theorem stampedIn_lifecycle (m : Lifecycle) : stampedIn a [.lifecycle m] = [] := rfl

@[simp] theorem stampedTo_nil : stampedTo a [] = [] := rfl

@[simp] theorem stampedTo_append (xs ys : List Posting) :
    stampedTo a (xs ++ ys) = stampedTo a xs ++ stampedTo a ys := by
  simp [stampedTo]

variable {stamp : Stamp}

theorem stampedTo_eq_map {xs : List Posting} (h : ∀ x ∈ xs, x.stamp = stamp) :
    stampedTo a xs = (entriesTo a xs).map (stamp, ·) := by
  rw [stampedTo, entriesTo, List.map_map]
  refine List.map_congr_left fun x hx => ?_
  rw [h x (List.mem_filter.1 hx).1]
  rfl

theorem stampedIn_eq_map {lines : List OutputLine}
    (h : ∀ record ∈ recordsIn lines, record.stamp = stamp) :
    stampedIn a lines = (entriesIn a lines).map (stamp, ·) := by
  rw [stampedIn, entriesIn, List.map_flatMap]
  refine List.flatMap_congr fun line hline => ?_
  cases line with
  | batch endpoint record =>
    have hstamp : record.stamp = stamp := h record (List.mem_filterMap.2 ⟨_, hline, rfl⟩)
    by_cases ha : endpoint = a <;> simp [OutputLine.stampedFor, OutputLine.entriesFor, ha, hstamp]
  | lifecycle m => rfl

/-- **What is held under one stamp is written under it.** -/
theorem stampedIn_batches {xs : List Posting} (h : ∀ x ∈ xs, x.stamp = stamp) :
    stampedIn a ((grouped xs).map fun (a, r) => .batch a r) = stampedTo a xs := by
  have hrecords : ∀ record ∈ recordsIn ((grouped xs).map fun (a, r) => .batch a r),
      record.stamp = stamp := by
    rw [recordsIn_batches]
    intro record hrecord
    obtain ⟨g, hg, rfl⟩ := List.mem_map.1 hrecord
    obtain ⟨x, hx, -, hstamp⟩ := posting_of_mem_grouped hg
    exact hstamp.symm.trans (h x hx)
  rw [stampedIn_eq_map a hrecords, stampedTo_eq_map a h, entriesIn_grouped]

end Lines

/-! ### What is held -/

namespace Current

variable {source : String} {events : List Event} {xs ys : List Posting} {e : Event}

theorem nil : Current source events [] := .inl rfl

theorem exists_stamp (h : Current source events xs) : ∃ stamp, ∀ x ∈ xs, x.stamp = stamp := by
  rcases h with rfl | ⟨before, u, after, -, -, -, hstamp⟩
  · exact ⟨⟨source, 0, 0⟩, nofun⟩
  · exact ⟨_, hstamp⟩

/-- **What an event puts in is current with what is held**, for if there was a change since the last
control event, then the event has its epoch. -/
theorem append (h : Current source events xs) (hsteady : EpochsSteady (events ++ [e]))
    (hpartition : ∀ u ∈ events, u.partition = e.partition) (hcontrol : e.opcode.isControl = false)
    (hys : ∀ y ∈ ys, y.stamp = e.stamp source ∧ e.opcode.isData = true) :
    Current source (events ++ [e]) (xs ++ ys) := by
  rcases h with rfl | ⟨before, u, after, rfl, hu, hafter, hstamp⟩
  · cases ys with
    | nil => exact .nil
    | cons y ys =>
      exact .inr ⟨events, e, [], rfl, (hys y List.mem_cons_self).2, nofun, fun x hx => (hys x hx).1⟩
  · refine .inr ⟨before, u, after ++ [e], by simp, hu, ?_, ?_⟩
    · exact List.forall_mem_append.2 ⟨hafter, List.forall_mem_singleton.2 hcontrol⟩
    · refine List.forall_mem_append.2 ⟨hstamp, fun y hy => ?_⟩
      obtain ⟨hy, hdata⟩ := hys y hy
      have hepoch : u.epoch = e.epoch := hsteady before u after e [] (by simp) hu hdata hafter
      have hsame : u.partition = e.partition := hpartition u (by simp)
      rw [hy, Event.stamp, Event.stamp, hepoch, hsame]

end Current

/-! ### A worker -/

namespace Worker

section Steps

variable {r : Router} {every : Nat} {events : List Event} {log : List Handling}
  {pending : List Posting} {w : Worker}

theorem Stamps.flush (h : Stamps r events log pending w) : Stamps r events log [] w.flush where
  accumulator := rfl
  stamped a := by
    obtain ⟨stamp, hstamp⟩ := h.current.exists_stamp
    rw [lines_flush, stampedIn_append, h.accumulator, Accumulator.records_putAll_empty,
      stampedIn_batches a hstamp, h.stamped]
    exact List.append_nil _
  current := .nil

/-- A control event finds nothing held back, and after it another epoch may begin. -/
theorem Stamps.announce (h : Stamps r events log [] w.flush) (e : Event) (m : Lifecycle) :
    Stamps r (events ++ [e]) log [] (w.announce m) where
  accumulator := rfl
  stamped a := by
    have hlines : (w.announce m).lines = w.flush.lines ++ [.lifecycle m] := rfl
    rw [hlines, stampedIn_append, stampedIn_lifecycle, List.append_nil, h.stamped]
  current := .nil

/-- What any other event appends stands under the stamp of the event, be it in a record that began
with another. -/
theorem Stamps.routeEvent (h : Stamps r events log pending w) {e : Event}
    (hsteady : EpochsSteady (events ++ [e])) (hpartition : ∀ u ∈ events, u.partition = e.partition)
    (he : r.control e = none) :
    Stamps r (events ++ [e]) (log ++ [w.handle r e]) (pending ++ r.postings e (some w.buffer))
      (w.routeEvent r e) where
  accumulator := by
    rw [accumulator_routeEvent, h.accumulator, Accumulator.putAll_append]
  stamped a := by
    have hlines : (w.routeEvent r e).lines = w.lines := rfl
    have hputs : stampedTo a (r.postings e (some w.buffer)) =
        (w.handle r e).stamped r.source a := by
      rw [stampedTo_eq_map a fun x hx => (r.of_mem_postings e _ hx).1, Handling.stamped,
        appended_handle]
      rfl
    rw [hlines, stampedTo_append, ← List.append_assoc, h.stamped, hputs, List.flatMap_append,
      List.flatMap_singleton]
  current := by
    have hcontrol : e.opcode.isControl = false := by
      rw [← r.control_isSome, he]
      rfl
    exact h.current.append hsteady hpartition hcontrol fun x hx => r.of_mem_postings e _ hx

/-- **Each event keeps the stamps right**, whichever way it makes the worker write. -/
theorem Stamps.step (h : Stamps r events log pending w) {e : Event}
    (hsteady : EpochsSteady (events ++ [e]))
    (hpartition : ∀ u ∈ events, u.partition = e.partition) :
    ∃ pending', Stamps r (events ++ [e]) (log ++ w.logged r e) pending' (w.step r every e) := by
  unfold Worker.step
  split
  · next m hm =>
    rw [logged_of_control hm, List.append_nil]
    exact ⟨_, h.flush.announce e m⟩
  · next hm =>
    rw [logged_of_routed hm]
    have hrouted := h.routeEvent hsteady hpartition hm
    unfold flushIfDue
    split
    · exact ⟨_, hrouted.flush⟩
    · exact ⟨_, hrouted⟩

end Steps

theorem stamps_foldl (r : Router) (every : Nat) {p : UInt16} {events : List Event}
    (hsteady : EpochsSteady events) (hpartition : ∀ e ∈ events, e.partition = p) :
    ∃ pending, Stamps r events (log r every {} events) pending
      (events.foldl (Worker.step r every) {}) := by
  induction events using List.reverseRecOn with
  | nil => exact ⟨[], rfl, fun _ => rfl, .nil⟩
  | append_singleton events e ih =>
    obtain ⟨hevents, he⟩ := List.forall_mem_append.1 hpartition
    obtain ⟨pending, h⟩ := ih hsteady.of_append hevents
    rw [List.foldl_append, List.foldl_cons, List.foldl_nil, log_append_singleton]
    exact h.step hsteady fun u hu => (hevents u hu).trans (he e List.mem_cons_self).symm

/-- **The stamps of what a worker writes** are those of its events. -/
theorem stampedIn_run (r : Router) (every : Nat) {p : UInt16} {events : List Event}
    (hsteady : EpochsSteady events) (hpartition : ∀ e ∈ events, e.partition = p) (a : Address) :
    stampedIn a (run r every events).lines =
      (log r every {} events).flatMap (Handling.stamped r.source a) := by
  obtain ⟨pending, h⟩ := stamps_foldl r every hsteady hpartition
  have hend := h.flush.stamped a
  rw [stampedTo_nil, List.append_nil] at hend
  exact hend

end Worker

namespace Replay

/-- **Batches carry the stamps of their entries.** Take any settings and any recording in which the
changes of a partition carry the same epoch between one control event and the next. The entries in
the batches of the partition are, for each endpoint and in order, those that its events appended,
and each stands in a record with the source of the definition, the partition of its event and the
epoch of its event, however often batches are written out. -/
theorem batch_stamps (s : ReplaySettings) (recording : Recording) (p : UInt16)
    (hsteady : EpochsSteady (eventsOf p recording.events)) :
    let lines := written s recording p
    let source := s.router.definition.source
    (run s recording {}).linesOf p = lines.map OutputLine.print ∧
      (log s recording p).map (·.event) =
        (eventsOf p recording.events).filter (fun e => !e.opcode.isControl) ∧
      (∀ a, stampedIn a lines = (log s recording p).flatMap fun u =>
        (u.appended a).map fun z => (⟨source, u.event.partition, u.event.epoch⟩, z)) ∧
      ∀ a record, .batch a record ∈ lines → ∀ z ∈ record.entries, ∃ u ∈ log s recording p,
        z ∈ u.appended a ∧ record.stamp = ⟨source, u.event.partition, u.event.epoch⟩ := by
  intro lines source
  have hpartition : ∀ e ∈ eventsOf p recording.events, e.partition = p :=
    fun e he => of_decide_eq_true (List.mem_filter.1 he).2
  have hstamped : ∀ a, stampedIn a lines = (log s recording p).flatMap fun u =>
      (u.appended a).map fun z => (⟨source, u.event.partition, u.event.epoch⟩, z) := by
    intro a
    have hlines : lines = (workerOf s p recording.events).lines := written_eq s recording p
    rw [hlines]
    exact Worker.stampedIn_run _ _ hsteady hpartition a
  refine ⟨?_, Worker.map_event_log _, hstamped, fun a record hrecord z hz => ?_⟩
  · rw [linesOf_run, ← written_eq]
  · have hmem : (record.stamp, z) ∈ stampedIn a lines := by
      refine List.mem_flatMap.2 ⟨_, hrecord, ?_⟩
      rw [OutputLine.stampedFor, if_pos rfl]
      exact List.mem_map_of_mem hz
    rw [hstamped] at hmem
    obtain ⟨u, hu, hmem⟩ := List.mem_flatMap.1 hmem
    obtain ⟨z', hz', heq⟩ := List.mem_map.1 hmem
    obtain ⟨hstamp, rfl⟩ := Prod.mk.inj heq
    exact ⟨u, hu, hz', hstamp.symm⟩

/-- Two removals, a control event, and a removal in another epoch. -/
def epochText : Bytes := Text.encode (removalLine ++ "\n" ++ removalLine ++ "\n" ++ syncLine ++
  "\n\x7b\"opcode\":\"deletion\",\"partition\":3,\"epoch\":1\x7d\n")

theorem batch_stamps_epochs :
    let recording := Recording.ofText (some epochText)
    let settings := { sampleSettings with flushEvery := 0 }
    let removed : Entry := ⟨0, [], 0, .deletion 7 none none⟩
    recording.error = none ∧ (eventsOf 3 recording.events).map (·.epoch) = [0, 0, 0, 1] ∧
      EpochsSteady (eventsOf 3 recording.events) ∧
      (∀ a, stampedIn a (written settings recording 3) =
        (log settings recording 3).flatMap fun u =>
          (u.appended a).map fun z => (⟨"orders", u.event.partition, u.event.epoch⟩, z)) ∧
      stampedIn "a" (written settings recording 3) =
        [(⟨"orders", 3, 0⟩, removed), (⟨"orders", 3, 0⟩, removed),
          (⟨"orders", 3, 1⟩, removed)] := by
  intro recording settings removed
  have hrecording : recording = ⟨[.ofDocument .deletion 3 [], .ofDocument .deletion 3 [],
      .ofStream .sync 3 0 0, { Event.ofDocument .deletion 3 [] with epoch := 1 }], none⟩ :=
    Recording.eq_of_read (by decide +kernel)
  have hepochs : (eventsOf 3 recording.events).map (·.epoch) = [0, 0, 0, 1] := by
    rw [hrecording]
    decide +kernel
  have hsteady : EpochsSteady (eventsOf 3 recording.events) := by
    rw [hrecording]
    decide +kernel
  obtain ⟨-, -, hstamped, -⟩ := batch_stamps settings recording 3 hsteady
  refine ⟨by rw [hrecording], hepochs, hsteady, hstamped, ?_⟩
  rw [hstamped, hrecording]
  decide +kernel

end Replay

end IndexFeed
