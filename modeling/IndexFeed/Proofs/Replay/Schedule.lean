import IndexFeed.Proofs.Replay.Dispatch
import Mathlib.Algebra.Order.BigOperators.Group.List
import Mathlib.Algebra.Order.Ring.Nat
import Mathlib.Logic.Function.Basic

/-!
# Workers side by side

Workers need not run one after the other: while the recording is still being read, each works on
what it has been given, and its lines go out in between those of the others. Whatever the order of
turns, the lines of a partition go out in the order its worker writes them, and none is made up
(`sent_prefix`). Until all is done something can be done, so that any schedule can be carried on to
its end (`progress`, `exists_complete`), and then the lines of each partition are those of its
worker (`sent_of_complete`).
-/

namespace IndexFeed

/-- A turn in a replay whose workers run side by side. -/
inductive Turn where
  | read
  | work (p : UInt16)
  | close (p : UInt16)
  | send (p : UInt16)

/-- A replay whose workers run side by side. -/
structure Underway where
  unread : List Event
  /-- What each worker was handed and has not taken. -/
  inbox : UInt16 → List Event := fun _ => []
  workers : UInt16 → Worker := fun _ => {}
  closed : UInt16 → Bool := fun _ => false
  /-- The lines in the order they went out. -/
  stream : List (UInt16 × OutputLine) := []

/-- The lines of a partition among those that went out. -/
def sentFor (p : UInt16) (stream : List (UInt16 × OutputLine)) : List OutputLine :=
  (stream.filter (·.1 = p)).map (·.2)

namespace Underway

/-- The next event is handed to its worker. -/
def read (d : Underway) : Underway :=
  match d.unread with
  | [] => d
  | e :: rest =>
    { d with
      unread := rest
      inbox := Function.update d.inbox e.partition (d.inbox e.partition ++ [e]) }

/-- A worker takes the next event that it was handed. -/
def work (s : ReplaySettings) (d : Underway) (p : UInt16) : Underway :=
  match d.inbox p with
  | [] => d
  | e :: rest =>
    { d with
      inbox := Function.update d.inbox p rest
      workers := Function.update d.workers p ((d.workers p).step s.toRouter s.flushEvery.toNat e) }

/-- A worker that will be handed no more events writes out what is left. -/
def close (d : Underway) (p : UInt16) : Underway :=
  if d.unread = [] ∧ d.inbox p = [] ∧ d.closed p = false then
    { d with
      workers := Function.update d.workers p (d.workers p).flush
      closed := Function.update d.closed p true }
  else d

/-- The next line of a worker goes out. -/
def send (d : Underway) (p : UInt16) : Underway :=
  match (d.workers p).lines[(sentFor p d.stream).length]? with
  | none => d
  | some line => { d with stream := d.stream ++ [(p, line)] }

/-- The replay after a turn. A turn for which there is nothing to do changes nothing. -/
def turn (s : ReplaySettings) (d : Underway) : Turn → Underway
  | .read => d.read
  | .work p => d.work s p
  | .close p => d.close p
  | .send p => d.send p

/-- A replay of events after turns. -/
def run (s : ReplaySettings) (events : List Event) (turns : List Turn) : Underway :=
  turns.foldl (turn s) { unread := events }

/-- Nothing is left to do: the workers of all partitions are closed and their lines went out. -/
def Complete (events : List Event) (d : Underway) : Prop :=
  ∀ p ∈ partitionsOf events,
    d.closed p = true ∧ (sentFor p d.stream).length = (d.workers p).lines.length

/-- How far a partition has come: its worker has taken the events `taken`. -/
structure Stage (s : ReplaySettings) (events : List Event) (d : Underway) (p : UInt16)
    (taken : List Event) : Prop where
  split : taken ++ d.inbox p ++ eventsOf p d.unread = eventsOf p events
  worker : d.workers p = if d.closed p then Worker.run s.toRouter s.flushEvery.toNat taken
    else taken.foldl (Worker.step s.toRouter s.flushEvery.toNat) {}
  closed : d.closed p = true → d.unread = [] ∧ d.inbox p = []
  sent : sentFor p d.stream <+: (d.workers p).lines

end Underway

/-! ### Lines are only added -/

theorem Worker.prefix_flush (w : Worker) : w.lines <+: w.flush.lines := List.prefix_append ..

theorem Worker.prefix_step (r : Router) (every : Nat) (w : Worker) (e : Event) :
    w.lines <+: (w.step r every e).lines := by
  unfold step
  split
  · exact (prefix_flush w).trans (List.prefix_append ..)
  · unfold flushIfDue
    split
    · exact prefix_flush (w.routeEvent r e)
    · exact List.prefix_rfl

theorem Worker.prefix_foldl (r : Router) (every : Nat) (w : Worker) (events : List Event) :
    w.lines <+: (events.foldl (Worker.step r every) w).lines := by
  induction events generalizing w with
  | nil => exact List.prefix_rfl
  | cons e events ih => exact (prefix_step r every w e).trans (ih _)

theorem Worker.prefix_run (r : Router) (every : Nat) (taken rest : List Event) :
    (taken.foldl (Worker.step r every) {}).lines <+:
      (Worker.run r every (taken ++ rest)).lines := by
  rw [Worker.run, List.foldl_append]
  exact (prefix_foldl r every _ rest).trans (prefix_flush _)

/-! ### A turn -/

namespace Underway

variable {s : ReplaySettings} {events taken : List Event} {d : Underway} {p : UInt16}

theorem sentFor_append (p q : UInt16) (stream : List (UInt16 × OutputLine)) (line : OutputLine) :
    sentFor p (stream ++ [(q, line)]) = sentFor p stream ++ if q = p then [line] else [] := by
  by_cases h : q = p <;> simp [sentFor, h]

/-- Before the first turn no worker has taken anything. -/
theorem stage_start (s : ReplaySettings) (events : List Event) (p : UInt16) :
    Stage s events { unread := events } p [] where
  split := by simp
  worker := rfl
  closed h := by cases h
  sent := List.prefix_rfl

theorem Stage.frame (h : Stage s events d p taken) {d' : Underway}
    (hunread : d'.unread = d.unread) (hinbox : d'.inbox p = d.inbox p)
    (hworker : d'.workers p = d.workers p) (hclosed : d'.closed p = d.closed p)
    (hsent : sentFor p d'.stream = sentFor p d.stream) : Stage s events d' p taken where
  split := by rw [hinbox, hunread, h.split]
  worker := by rw [hworker, hclosed, h.worker]
  closed := by
    rw [hclosed, hunread, hinbox]
    exact h.closed
  sent := by
    rw [hsent, hworker]
    exact h.sent

theorem Stage.worker_of_open (h : Stage s events d p taken) (hopen : d.closed p = false) :
    d.workers p = taken.foldl (Worker.step s.toRouter s.flushEvery.toNat) {} := by
  rw [h.worker, hopen, if_neg Bool.false_ne_true]

/-- A worker that is closed has taken all that there is for it. -/
theorem Stage.worker_of_closed (h : Stage s events d p taken) (hclosed : d.closed p = true) :
    d.workers p = Replay.workerOf s p events := by
  obtain ⟨hunread, hinbox⟩ := h.closed hclosed
  have htaken : taken = eventsOf p events := by
    rw [← h.split, hunread, hinbox]
    simp [eventsOf]
  rw [h.worker, if_pos hclosed, htaken, Replay.workerOf]

theorem Stage.read (h : Stage s events d p taken) : Stage s events d.read p taken := by
  unfold Underway.read
  cases hunread : d.unread with
  | nil => exact h
  | cons e rest =>
    refine ⟨?_, h.worker, fun hclosed => ?_, h.sent⟩
    · rw [← h.split, hunread]
      by_cases he : e.partition = p
      · subst he
        simp [eventsOf]
      · simp [Function.update_of_ne (Ne.symm he), eventsOf, he]
    · cases hunread.symm.trans (h.closed hclosed).1

theorem Stage.work (h : Stage s events d p taken) (q : UInt16) :
    ∃ taken', Stage s events (d.work s q) p taken' := by
  unfold Underway.work
  cases hinbox : d.inbox q with
  | nil => exact ⟨taken, h⟩
  | cons e rest =>
    by_cases hq : q = p
    · subst hq
      -- the worker is not closed, since it still has an event
      have hopen : d.closed q = false := by
        cases hclosed : d.closed q with
        | false => rfl
        | true => cases hinbox.symm.trans (h.closed hclosed).2
      refine ⟨taken ++ [e], ?_, ?_, fun hclosed => ?_, ?_⟩
      · rw [← h.split, hinbox]
        simp
      · simp [hopen, h.worker_of_open hopen]
      · cases hopen.symm.trans hclosed
      · simpa using h.sent.trans (Worker.prefix_step s.toRouter s.flushEvery.toNat (d.workers q) e)
    · have hp := Ne.symm hq
      exact ⟨taken, h.frame rfl (Function.update_of_ne hp ..) (Function.update_of_ne hp ..) rfl rfl⟩

theorem Stage.close (h : Stage s events d p taken) (q : UInt16) :
    Stage s events (d.close q) p taken := by
  unfold Underway.close
  split
  · next hidle =>
    obtain ⟨hunread, hinbox, hopen⟩ := hidle
    by_cases hq : q = p
    · subst hq
      refine ⟨h.split, ?_, fun _ => ⟨hunread, hinbox⟩, ?_⟩
      · simp [h.worker_of_open hopen, Worker.run]
      · simpa using h.sent.trans (Worker.prefix_flush (d.workers q))
    · have hp := Ne.symm hq
      exact h.frame rfl rfl (Function.update_of_ne hp ..) (Function.update_of_ne hp ..) rfl
  · exact h

theorem Stage.send (h : Stage s events d p taken) (q : UInt16) :
    Stage s events (d.send q) p taken := by
  unfold Underway.send
  split
  · exact h
  · next line hline =>
    by_cases hq : q = p
    · subst hq
      refine ⟨h.split, h.worker, h.closed, ?_⟩
      obtain ⟨rest, hrest⟩ := h.sent
      -- the next line is the first of those that have not gone out
      rw [← hrest, List.getElem?_append_right (Nat.le_refl _), Nat.sub_self] at hline
      obtain ⟨more, rfl⟩ := List.head?_eq_some_iff.1 (List.head?_eq_getElem?.trans hline)
      rw [sentFor_append, if_pos rfl]
      exact ⟨more, by rw [List.append_assoc, List.singleton_append, hrest]⟩
    · refine h.frame rfl rfl rfl rfl ?_
      rw [sentFor_append, if_neg hq, List.append_nil]

/-- **A turn keeps every partition on its way**, whichever worker has it. -/
theorem Stage.turn (h : Stage s events d p taken) (t : Turn) :
    ∃ taken', Stage s events (d.turn s t) p taken' := by
  cases t with
  | read => exact ⟨taken, h.read⟩
  | work q => exact h.work q
  | close q => exact ⟨taken, h.close q⟩
  | send q => exact ⟨taken, h.send q⟩

/-! ### A schedule -/

theorem stage_run (s : ReplaySettings) (events : List Event) (turns : List Turn) (p : UInt16) :
    ∃ taken, Stage s events (run s events turns) p taken := by
  induction turns using List.reverseRecOn with
  | nil => exact ⟨[], stage_start s events p⟩
  | append_singleton turns t ih =>
    obtain ⟨taken, h⟩ := ih
    rw [run, List.foldl_append]
    exact h.turn t

theorem sent_prefix (s : ReplaySettings) (events : List Event) (turns : List Turn) (p : UInt16) :
    sentFor p (run s events turns).stream <+: (Replay.workerOf s p events).lines := by
  obtain ⟨taken, h⟩ := stage_run s events turns p
  refine h.sent.trans ?_
  cases hclosed : (run s events turns).closed p with
  | true => exact h.worker_of_closed hclosed ▸ List.prefix_rfl
  | false =>
    rw [h.worker_of_open hclosed, Replay.workerOf, ← h.split, List.append_assoc]
    exact Worker.prefix_run ..

/-- **When nothing is left to do**, each partition has its lines out, whatever the schedule was. -/
theorem sent_of_complete (s : ReplaySettings) (events : List Event) (turns : List Turn)
    (hend : (run s events turns).Complete events) (p : UInt16) :
    sentFor p (run s events turns).stream = (Replay.workerOf s p events).lines := by
  have hprefix := sent_prefix s events turns p
  by_cases hp : p ∈ partitionsOf events
  · obtain ⟨hclosed, hlength⟩ := hend p hp
    obtain ⟨taken, h⟩ := stage_run s events turns p
    refine hprefix.eq_of_length ?_
    rw [hlength, h.worker_of_closed hclosed]
  · rw [Replay.workerOf_of_not_mem hp] at hprefix ⊢
    exact List.prefix_nil.1 hprefix

/-! ### Nothing gets stuck -/

/-- What is left to do for a partition: each event is handed out and taken, the worker is closed,
and each line goes out. -/
def left (s : ReplaySettings) (events : List Event) (d : Underway) (p : UInt16) : Nat :=
  2 * (eventsOf p d.unread).length + (d.inbox p).length + (if d.closed p then 0 else 1) +
    ((Replay.workerOf s p events).lines.length - (sentFor p d.stream).length)

/-- There is less left to do for `p`, and as much as before for all others. -/
def Advances (s : ReplaySettings) (events : List Event) (p : UInt16) (d d' : Underway) : Prop :=
  left s events d' p < left s events d p ∧ ∀ q, q ≠ p → left s events d' q = left s events d q

section Advances

variable (s) {e : Event} {rest : List Event}

theorem advances_read (h : d.unread = e :: rest) : Advances s events e.partition d d.read := by
  unfold Underway.read
  rw [h]
  constructor
  · have hunread : eventsOf e.partition d.unread = e :: eventsOf e.partition rest := by
      simp [h, eventsOf]
    simp only [left, hunread, Function.update_self, List.length_append, List.length_cons,
      List.length_nil]
    omega
  · intro q hq
    simp [left, h, eventsOf, Function.update_of_ne hq, Ne.symm hq]

theorem advances_work (h : d.inbox p = e :: rest) : Advances s events p d (d.work s p) := by
  unfold Underway.work
  rw [h]
  constructor
  · simp [left, h]
  · intro q hq
    simp [left, Function.update_of_ne hq]

theorem advances_close (hunread : d.unread = []) (hinbox : d.inbox p = [])
    (hopen : d.closed p = false) : Advances s events p d (d.close p) := by
  unfold Underway.close
  rw [if_pos ⟨hunread, hinbox, hopen⟩]
  constructor
  · simp [left, hopen]
  · intro q hq
    simp [left, Function.update_of_ne hq]

theorem advances_send (h : (sentFor p d.stream).length < (d.workers p).lines.length)
    (hworker : (d.workers p).lines.length ≤ (Replay.workerOf s p events).lines.length) :
    Advances s events p d (d.send p) := by
  unfold Underway.send
  rw [List.getElem?_eq_getElem h]
  constructor
  · simp only [left, sentFor_append, if_true, List.length_append, List.length_singleton]
    omega
  · intro q hq
    simp only [left, sentFor_append, if_neg (Ne.symm hq), List.append_nil]

end Advances

/-- **Until all is done, something can be done.** -/
theorem progress (s : ReplaySettings) (events : List Event) (turns : List Turn)
    (hend : ¬ (run s events turns).Complete events) :
    ∃ t, ∃ p ∈ partitionsOf events,
      Advances s events p (run s events turns) ((run s events turns).turn s t) := by
  unfold Complete at hend
  push Not at hend
  obtain ⟨p, hp, hnot⟩ := hend
  obtain ⟨taken, h⟩ := stage_run s events turns p
  have hstage := stage_run s events turns
  generalize run s events turns = d at h hnot hstage
  -- who can move is found upstream first: the reader, then the inbox, then the outgoing lines
  cases hunread : d.unread with
  | cons e rest =>
    refine ⟨.read, e.partition, ?_, advances_read s hunread⟩
    obtain ⟨taken, h⟩ := hstage e.partition
    rw [mem_partitionsOf, ← h.split, hunread]
    simp [eventsOf]
  | nil =>
    cases hinbox : d.inbox p with
    | cons e rest => exact ⟨.work p, p, hp, advances_work s hinbox⟩
    | nil =>
      cases hclosed : d.closed p with
      | false => exact ⟨.close p, p, hp, advances_close s hunread hinbox hclosed⟩
      | true =>
        have hlt : (sentFor p d.stream).length < (d.workers p).lines.length :=
          Nat.lt_of_le_of_ne h.sent.length_le (hnot hclosed)
        have hworker : (d.workers p).lines.length ≤ (Replay.workerOf s p events).lines.length := by
          rw [h.worker_of_closed hclosed]
        exact ⟨.send p, p, hp, advances_send s hlt hworker⟩

/-- Any schedule can be carried on until all is done. -/
theorem exists_complete (s : ReplaySettings) (events : List Event) (turns : List Turn) :
    ∃ more, (run s events (turns ++ more)).Complete events := by
  induction hn : ((partitionsOf events).map (left s events (run s events turns))).sum
    using Nat.strongRecOn generalizing turns with
  | _ n ih =>
    by_cases hend : (run s events turns).Complete events
    · exact ⟨[], by rwa [List.append_nil]⟩
    · obtain ⟨t, p, hp, hless, hothers⟩ := progress s events turns hend
      have hturn : run s events (turns ++ [t]) = (run s events turns).turn s t :=
        List.foldl_append
      have hsum : ((partitionsOf events).map
          (left s events (run s events (turns ++ [t])))).sum < n := by
        rw [← hn, hturn]
        refine List.sum_lt_sum _ _ (fun q _ => ?_) ⟨p, hp, hless⟩
        by_cases hq : q = p
        · exact hq ▸ Nat.le_of_lt hless
        · exact Nat.le_of_eq (hothers q hq)
      obtain ⟨more, hmore⟩ := ih _ hsum (turns ++ [t]) rfl
      exact ⟨t :: more, by rwa [List.append_cons]⟩

end Underway

end IndexFeed
