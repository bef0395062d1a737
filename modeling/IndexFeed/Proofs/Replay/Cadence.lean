import IndexFeed.Proofs.Batch.History
import IndexFeed.Proofs.Replay.Log

/-!
# When a worker writes

The lines of a worker follow from a cut of its events. Control events cut them into segments
(`segments`), and every so many events of a segment make a chunk (`chunks`). Each chunk is written
out on its own, and each segment is followed by the message of the control event that ends it
(`flush_cadence`). The invariant is that a worker holds what the chunk it is in has put in so far,
and has counted its events (`Worker.Holds`): the chunk is full exactly when the count is due, and
control events begin another one.
-/

namespace IndexFeed

/-- Events that are no control events, and the control event that comes after them, if one does. -/
structure Segment where
  events : List Event
  closing : Option Event

/-- The segment with events ahead of its own. -/
def Segment.behind (events : List Event) (s : Segment) : Segment :=
  { s with events := events ++ s.events }

/-- Events cut at the control events. -/
def segments : List Event → List Segment
  | [] => [⟨[], none⟩]
  | e :: events =>
    if e.opcode.isControl then ⟨[], some e⟩ :: segments events
    else (segments events).modifyHead (.behind [e])

/-- A list cut into pieces of `n`, the last of which may be shorter; zero leaves it in one piece. -/
def chunks {α : Type} : Nat → List α → List (List α)
  | _, [] => []
  | 0, x :: xs => [x :: xs]
  | n + 1, x :: xs => (x :: xs.take n) :: chunks (n + 1) (xs.drop n)
termination_by _ xs => xs.length
decreasing_by
  rw [List.length_drop, List.length_cons]
  exact Nat.lt_succ_of_le (Nat.sub_le ..)

/-- Segments are events cut at all control events, and nowhere else. -/
structure CutAtControls (events : List Event) (ss : List Segment) : Prop where
  whole : (ss.flatMap fun s => s.events ++ s.closing.toList) = events
  between : ∀ s ∈ ss, ∀ e ∈ s.events, e.opcode.isControl = false
  closing : ∀ s ∈ ss, ∀ c ∈ s.closing, c.opcode.isControl = true
  closed : ∀ s ∈ ss.dropLast, s.closing.isSome = true
  last : ∃ s ∈ ss.getLast?, s.closing = none

/-- Pieces are a list cut after every `n` items; if `n` is zero, it is in one piece. -/
structure CutEvery {α : Type} (n : Nat) (xs : List α) (cs : List (List α)) : Prop where
  whole : cs.flatten = xs
  filled : ∀ c ∈ cs, c ≠ []
  full : 0 < n → ∀ c ∈ cs.dropLast, c.length = n
  short : 0 < n → ∀ c ∈ cs, c.length ≤ n
  uncut : n = 0 → cs.length ≤ 1

namespace Router

/-- The batches of events that are written out together: what the events put in, grouped by
endpoint. -/
def batches (r : Router) (events : List Event) : List OutputLine :=
  (grouped (events.flatMap fun e => r.puts e true)).map fun (a, record) => .batch a record

/-- The lines of a segment: the batches of one chunk after the other, and the message of the control
event that ends it. -/
def segmentLines (r : Router) (n : Nat) (s : Segment) : List OutputLine :=
  (chunks n s.events).flatMap r.batches ++ (s.closing.bind r.control).toList.map .lifecycle

end Router

/-- A worker in the middle of a segment holds what the events put in that it routed since it last
wrote out, and has counted these. -/
structure Worker.Holds (r : Router) (held : List Event) (w : Worker) : Prop where
  accumulator : w.accumulator = Accumulator.empty.putAll (held.flatMap fun e => r.puts e true)
  pending : w.pending = held.length
  routed : ∀ e ∈ held, e.opcode.isControl = false

/-! ### Segments -/

theorem segments_ne_nil (events : List Event) : segments events ≠ [] := by
  induction events with
  | nil => simp [segments]
  | cons e events ih =>
    rw [segments]
    split
    · simp
    · rwa [ne_eq, List.modifyHead_eq_nil_iff]

/-- The first segment takes in what comes ahead of it. -/
theorem segments_append {events : List Event} (h : ∀ e ∈ events, e.opcode.isControl = false)
    (rest : List Event) :
    segments (events ++ rest) = (segments rest).modifyHead (.behind events) := by
  induction events with
  | nil =>
    rw [List.nil_append]
    cases segments rest <;> rfl
  | cons e events ih =>
    obtain ⟨he, hevents⟩ := List.forall_mem_cons.1 h
    rw [List.cons_append, segments, he, if_neg Bool.false_ne_true, ih hevents,
      List.modifyHead_modifyHead]
    rfl

theorem segments_of_routed {events : List Event} (h : ∀ e ∈ events, e.opcode.isControl = false) :
    segments events = [⟨events, none⟩] := by
  have hsegments := segments_append h []
  rw [List.append_nil] at hsegments
  simpa [segments, Segment.behind] using hsegments

theorem segments_append_control {events : List Event}
    (h : ∀ e ∈ events, e.opcode.isControl = false) {c : Event} (hc : c.opcode.isControl = true)
    (rest : List Event) : segments (events ++ c :: rest) = ⟨events, some c⟩ :: segments rest := by
  rw [segments_append h, segments, if_pos hc, List.modifyHead_cons, Segment.behind, List.append_nil]

/-- **Segments are cut where they should be.** -/
theorem cutAtControls_segments (events : List Event) : CutAtControls events (segments events) := by
  induction events with
  | nil => constructor <;> simp [segments]
  | cons e events ih =>
    rw [segments]
    split
    -- a control event closes a segment with nothing else in it
    case isTrue he =>
      constructor
      case whole => simp [ih.whole]
      case between => exact List.forall_mem_cons.2 ⟨by simp, ih.between⟩
      case closing => exact List.forall_mem_cons.2 ⟨by simpa using he, ih.closing⟩
      case closed =>
        rw [List.dropLast_cons_of_ne_nil (segments_ne_nil events)]
        exact List.forall_mem_cons.2 ⟨rfl, ih.closed⟩
      case last =>
        rw [List.getLast?_cons_of_ne_nil (segments_ne_nil events)]
        exact ih.last
    -- any other event goes to the front of the first segment, which there always is
    case isFalse he =>
      have hne := segments_ne_nil events
      generalize segments events = ss at ih hne
      cases ss with
      | nil => exact absurd rfl hne
      | cons s ss =>
        rw [List.modifyHead_cons]
        obtain ⟨hs, hbetween⟩ := List.forall_mem_cons.1 ih.between
        constructor
        case whole => simpa [Segment.behind] using ih.whole
        case between =>
          exact List.forall_mem_cons.2
            ⟨List.forall_mem_cons.2 ⟨Bool.eq_false_iff.2 he, hs⟩, hbetween⟩
        case closing => exact List.forall_mem_cons.2 (List.forall_mem_cons.1 ih.closing)
        case closed =>
          have hclosed := ih.closed
          cases ss with
          | nil => simp
          | cons s' ss => exact List.forall_mem_cons.2 (List.forall_mem_cons.1 hclosed)
        case last =>
          have hlast := ih.last
          cases ss with
          | nil => simpa [Segment.behind] using hlast
          | cons s' ss => exact hlast

/-! ### Chunks -/

section Chunks

variable {α : Type} {n : Nat}

theorem chunks_append {c : List α} (hn : 0 < n) (hc : c.length = n) (xs : List α) :
    chunks n (c ++ xs) = c :: chunks n xs := by
  cases c with
  | nil => exact absurd hc (Nat.ne_of_lt hn)
  | cons x c =>
    cases n with
    | zero => exact absurd hn (Nat.lt_irrefl 0)
    | succ n =>
      have hlength : c.length = n := Nat.succ_inj.1 hc
      rw [List.cons_append, chunks, List.take_left' hlength, List.drop_left' hlength]

theorem chunks_of_le {c : List α} (hne : c ≠ []) (h : 0 < n → c.length ≤ n) : chunks n c = [c] := by
  cases c with
  | nil => exact absurd rfl hne
  | cons x c =>
    cases n with
    | zero => rw [chunks]
    | succ n =>
      have hlength : c.length ≤ n := Nat.succ_le_succ_iff.1 (h (Nat.succ_pos n))
      rw [chunks, List.take_of_length_le hlength, List.drop_of_length_le hlength, chunks]

/-- **Chunks are cut where they should be.** -/
theorem cutEvery_chunks (n : Nat) (xs : List α) : CutEvery n xs (chunks n xs) := by
  fun_induction chunks n xs with
  | case1 n => constructor <;> simp
  | case2 x xs => constructor <;> simp
  | case3 n x xs ih =>
    constructor
    case whole => simp [ih.whole]
    case filled => exact List.forall_mem_cons.2 ⟨by simp, ih.filled⟩
    case full =>
      intro hn c hc
      -- a piece with another one behind it has all its items
      cases hrest : chunks (n + 1) (xs.drop n) with
      | nil =>
        rw [hrest] at hc
        cases hc
      | cons d ds =>
        have hmore : xs.drop n ≠ [] := by
          intro hnil
          rw [hnil, chunks] at hrest
          cases hrest
        rw [List.dropLast_cons_of_ne_nil (by simp [hrest])] at hc
        rcases List.mem_cons.1 hc with rfl | hc
        · have hlength : n < xs.length := List.length_lt_of_drop_ne_nil hmore
          rw [List.length_cons, List.length_take, Nat.min_eq_left hlength.le]
        · exact ih.full hn c hc
    case short =>
      refine fun hn => List.forall_mem_cons.2 ⟨?_, ih.short hn⟩
      rw [List.length_cons]
      exact Nat.succ_le_succ (List.length_take_le n xs)
    case uncut => exact fun hn => absurd hn (Nat.succ_ne_zero n)

end Chunks

/-! ### Lines -/

namespace Router

variable {r : Router} {n : Nat}

@[simp] theorem batches_nil : r.batches [] = [] := by
  simp [batches, grouped]

theorem flatMap_batches_of_le {events : List Event} (h : 0 < n → events.length ≤ n) :
    (chunks n events).flatMap r.batches = r.batches events := by
  cases events with
  | nil => rw [chunks, List.flatMap_nil, batches_nil]
  | cons e events =>
    rw [chunks_of_le (List.cons_ne_nil e events) h, List.flatMap_singleton]

theorem flatMap_segmentLines_of_routed {events : List Event} (hle : 0 < n → events.length ≤ n)
    (h : ∀ e ∈ events, e.opcode.isControl = false) :
    (segments events).flatMap (r.segmentLines n) = r.batches events := by
  rw [segments_of_routed h, List.flatMap_singleton, segmentLines, flatMap_batches_of_le hle]
  exact List.append_nil _

theorem flatMap_segmentLines_control {events : List Event} (hle : 0 < n → events.length ≤ n)
    (h : ∀ e ∈ events, e.opcode.isControl = false) {c : Event} {m : Lifecycle}
    (hm : r.control c = some m) (rest : List Event) :
    (segments (events ++ c :: rest)).flatMap (r.segmentLines n) =
      r.batches events ++ .lifecycle m :: (segments rest).flatMap (r.segmentLines n) := by
  have hc : c.opcode.isControl = true := by
    rw [← r.control_isSome, hm]
    rfl
  rw [segments_append_control h hc, List.flatMap_cons, segmentLines, flatMap_batches_of_le hle,
    Option.bind_some, hm, List.append_assoc]
  rfl

/-- A full chunk ahead of everything else is written out ahead of it. -/
theorem flatMap_segmentLines_append {events : List Event} (hn : 0 < n) (hlength : events.length = n)
    (h : ∀ e ∈ events, e.opcode.isControl = false) (rest : List Event) :
    (segments (events ++ rest)).flatMap (r.segmentLines n) =
      r.batches events ++ (segments rest).flatMap (r.segmentLines n) := by
  rw [segments_append h]
  cases hrest : segments rest with
  | nil => exact absurd hrest (segments_ne_nil rest)
  | cons s ss =>
    rw [List.modifyHead_cons, List.flatMap_cons, List.flatMap_cons, ← List.append_assoc]
    have hfirst : r.segmentLines n (.behind events s) = r.batches events ++ r.segmentLines n s := by
      rw [segmentLines, segmentLines, Segment.behind, chunks_append hn hlength, List.flatMap_cons,
        List.append_assoc]
    rw [hfirst]

/-- A line of a segment that is a batch comes from one of the chunks. -/
theorem exists_chunk_of_batch_mem {s : Segment} {a : Address} {record : Record}
    (h : .batch a record ∈ r.segmentLines n s) :
    ∃ c ∈ chunks n s.events, record.entries = entriesTo a (c.flatMap fun e => r.puts e true) := by
  rcases List.mem_append.1 h with h | h
  · obtain ⟨c, hc, hline⟩ := List.mem_flatMap.1 h
    obtain ⟨g, hg, hbatch⟩ := List.mem_map.1 hline
    cases hbatch
    exact ⟨c, hc, (groups_grouped _).entries g hg⟩
  · obtain ⟨m, -, hm⟩ := List.mem_map.1 h
    cases hm

end Router

/-! ### A worker -/

namespace Worker

variable {r : Router} {n : Nat} {held : List Event} {w : Worker}

theorem step_of_control {e : Event} {m : Lifecycle} (h : r.control e = some m) :
    w.step r n e = w.announce m := by
  rw [step, h]

theorem step_of_routed {e : Event} (h : r.control e = none) :
    w.step r n e = (w.routeEvent r e).flushIfDue n := by
  rw [step, h]

/-- A worker that has nothing to write and starts to count holds nothing. -/
theorem Holds.nil (haccumulator : w.accumulator = .empty) (hpending : w.pending = 0) :
    Holds r [] w where
  accumulator := haccumulator
  pending := hpending
  routed := by simp

theorem Holds.lines_flush (h : Holds r held w) : w.flush.lines = w.lines ++ r.batches held := by
  rw [Worker.lines_flush, h.accumulator, Accumulator.records_putAll_empty]
  rfl

theorem Holds.lines_announce (h : Holds r held w) (m : Lifecycle) :
    (w.announce m).lines = w.lines ++ r.batches held ++ [.lifecycle m] := by
  rw [← h.lines_flush]
  rfl

/-- An event that is routed is held with the others, whatever comes of it. -/
theorem Holds.routeEvent (hr : r.evaluator.Oblivious) (h : Holds r held w) {e : Event}
    (he : e.opcode.isControl = false) : Holds r (held ++ [e]) (w.routeEvent r e) where
  accumulator := by
    rw [List.flatMap_append, List.flatMap_singleton, Accumulator.putAll_append, ← h.accumulator]
    exact Router.route_puts hr e w.buffer w.accumulator
  pending := by
    rw [List.length_append, ← h.pending]
    rfl
  routed := List.forall_mem_append.2 ⟨h.routed, List.forall_mem_singleton.2 he⟩

theorem Holds.flushIfDue_of_full (h : Holds r held w) (hn : 0 < n) (hfull : held.length = n) :
    w.flushIfDue n = w.flush :=
  if_pos ⟨hn, (hfull.symm.trans h.pending.symm).le⟩

theorem Holds.flushIfDue_of_short (h : Holds r held w) (hshort : 0 < n → held.length < n) :
    w.flushIfDue n = w := by
  refine if_neg fun hdue => Nat.not_le_of_lt (hshort hdue.1) ?_
  rw [← h.pending]
  exact hdue.2

/-- **What a worker goes on to write** are the lines of the segments that begin with what it
holds. -/
theorem Holds.lines_foldl (hr : r.evaluator.Oblivious) (h : Holds r held w)
    (hshort : 0 < n → held.length < n) (events : List Event) :
    (events.foldl (step r n) w).flush.lines =
      w.lines ++ (segments (held ++ events)).flatMap (r.segmentLines n) := by
  induction events generalizing held w with
  | nil =>
    rw [List.append_nil, List.foldl_nil, h.lines_flush,
      Router.flatMap_segmentLines_of_routed (fun hn => (hshort hn).le) h.routed]
  | cons e events ih =>
    rw [List.foldl_cons]
    cases hm : r.control e with
    | some m =>
      have hnothing : Holds r [] (w.announce m) := .nil rfl rfl
      rw [step_of_control hm, ih hnothing id, h.lines_announce m, List.append_assoc,
        List.append_assoc,
        Router.flatMap_segmentLines_control (fun hn => (hshort hn).le) h.routed hm]
      rfl
    | none =>
      have he : e.opcode.isControl = false := by
        rw [← r.control_isSome, hm]
        rfl
      have hholds := h.routeEvent hr he
      have hlines : (w.routeEvent r e).lines = w.lines := rfl
      have hmore : (held ++ [e]).length = held.length + 1 := List.length_append
      rw [step_of_routed hm, List.append_cons]
      -- the event fills the chunk, or there is room for another one
      by_cases hfull : 0 < n ∧ (held ++ [e]).length = n
      · obtain ⟨hn, hfull⟩ := hfull
        have hnothing : Holds r [] (w.routeEvent r e).flush := .nil rfl rfl
        rw [hholds.flushIfDue_of_full hn hfull, ih hnothing id, hholds.lines_flush, hlines,
          List.append_assoc, List.nil_append,
          Router.flatMap_segmentLines_append hn hfull hholds.routed]
      · have hroom : 0 < n → (held ++ [e]).length < n := by
          intro hn
          have := hshort hn
          omega
        rw [hholds.flushIfDue_of_short hroom, ih hholds hroom, hlines]

theorem lines_foldl_of_holds_nil (hr : r.evaluator.Oblivious) (h : Holds r [] w)
    (events : List Event) :
    (events.foldl (step r n) w).flush.lines = w.lines ++ (run r n events).lines := by
  have hfresh : Holds r [] {} := .nil rfl rfl
  rw [h.lines_foldl hr id, run, hfresh.lines_foldl hr id]
  rfl

/-- **The lines of a worker.** -/
theorem lines_run (hr : r.evaluator.Oblivious) (n : Nat) (events : List Event) :
    (run r n events).lines = (segments events).flatMap (r.segmentLines n) := by
  have hfresh : Holds r [] {} := .nil rfl rfl
  exact hfresh.lines_foldl hr id events

/-- **A control event is a fresh start.** -/
theorem lines_run_append_control (hr : r.evaluator.Oblivious) (n : Nat) (before after : List Event)
    {c : Event} {m : Lifecycle} (hm : r.control c = some m) :
    (run r n (before ++ c :: after)).lines =
      (run r n before).lines ++ .lifecycle m :: (run r n after).lines := by
  let w := before.foldl (step r n) {}
  have hnothing : Holds r [] (w.announce m) := .nil rfl rfl
  have hannounced : (w.announce m).lines = (run r n before).lines ++ [.lifecycle m] := rfl
  rw [run, List.foldl_append, List.foldl_cons, step_of_control hm,
    lines_foldl_of_holds_nil hr hnothing, hannounced, List.append_assoc, List.singleton_append]

end Worker

namespace Replay

/-- **Flush cadence.** Cut the events of a partition at the control events, and each segment into
chunks of `n` events, or into one if `n` is zero, whatever comes of the events. The lines of a
worker are, chunk by chunk, the batches of what the events of the chunk put in, and after a segment
the message of the control event that ends it. So a batch holds entries of at most `n` events, what
is written after a control event is what a worker writes that begins there, and in the end nothing
is held that was not written. -/
theorem flush_cadence (s : ReplaySettings) (n : Nat) (events : List Event) :
    let r := s.toRouter
    let w := Worker.run r n events
    CutAtControls events (segments events) ∧
      (∀ segment ∈ segments events, CutEvery n segment.events (chunks n segment.events)) ∧
      (∀ e b acc, (r.route e (some b) acc).accumulator = acc.putAll (r.puts e true)) ∧
      (∀ e, (r.control e).isSome = e.opcode.isControl) ∧
      w.lines = (segments events).flatMap (r.segmentLines n) ∧
      (∀ a record, .batch a record ∈ w.lines →
        ∃ chunk, chunk <:+: events ∧ (0 < n → chunk.length ≤ n) ∧
          (∀ e ∈ chunk, e.opcode.isControl = false) ∧
          record.entries = entriesTo a (chunk.flatMap fun e => r.puts e true)) ∧
      (∀ before c after m, events = before ++ c :: after → r.control c = some m →
        w.lines = (Worker.run r n before).lines ++
          .lifecycle m :: (Worker.run r n after).lines) ∧
      w.accumulator = .empty ∧ Delivers r events w.lines := by
  intro r w
  have hr : r.evaluator.Oblivious := Projection.oblivious _
  have hlines : w.lines = (segments events).flatMap (r.segmentLines n) :=
    Worker.lines_run hr n events
  have hsegments := cutAtControls_segments events
  refine ⟨hsegments, fun segment _ => cutEvery_chunks n segment.events,
    fun e b acc => Router.route_puts hr e b acc, r.control_isSome, hlines,
    fun a record hbatch => ?_, fun before c after m hsplit hm => ?_, rfl,
    Worker.run_delivers hr n events⟩
  · rw [hlines] at hbatch
    obtain ⟨segment, hsegment, hbatch⟩ := List.mem_flatMap.1 hbatch
    obtain ⟨chunk, hchunk, hentries⟩ := Router.exists_chunk_of_batch_mem hbatch
    have hcut := cutEvery_chunks n segment.events
    -- a chunk is a piece of its segment, and this, without its control event, one of the run
    have hinner : chunk <:+: segment.events := by
      conv_rhs => rw [← hcut.whole]
      exact List.infix_of_mem_flatten hchunk
    have houter : segment.events <:+: events := by
      conv_rhs => rw [← hsegments.whole, List.flatMap_def]
      exact (List.prefix_append ..).isInfix.trans
        (List.infix_of_mem_flatten (List.mem_map_of_mem hsegment))
    exact ⟨chunk, hinner.trans houter, fun hn => hcut.short hn chunk hchunk,
      fun e he => hsegments.between segment hsegment e (hinner.subset he), hentries⟩
  · have hrun : w = Worker.run r n (before ++ c :: after) := by rw [← hsplit]
    rw [hrun]
    exact Worker.lines_run_append_control hr n before after hm

end Replay

end IndexFeed
