import IndexFeed.Proofs.Replay.Delivery
import IndexFeed.Proofs.Routing.Desk

/-!
# What a worker has handled

The events that a worker routes, each with what was held before it and with all that came of it
(`Worker.log`). This is a record of the run itself, and is there for any transform, also for one
that looks into the buffer. What an event appended is what it put in (`Worker.appended_handle`), and
whether a worker writes out early or late, it has written the same in the end
(`Worker.flush_step_of_routed`).
-/

namespace IndexFeed

/-- An event that a worker routed: what the worker held before, and what came of it. -/
structure Handling where
  event : Event
  held : Accumulator
  out : Routed

namespace Handling

def result (u : Handling) : Except RouteError RouteOutcome := u.out.result

/-- The entries that the record of each endpoint grew by. -/
def appended (u : Handling) : Address → List Entry := u.held.growth u.out.accumulator

/-- By how many entries all records together grew. -/
def added (u : Handling) : Nat := u.out.accumulator.entryCount - u.held.entryCount

end Handling

namespace Worker

/-- What a worker makes of an event that it routes. -/
def handle (r : Router) (w : Worker) (e : Event) : Handling :=
  ⟨e, w.accumulator, r.route e (some w.buffer) w.accumulator⟩

/-- What a worker logs of an event: nothing if it is announced. -/
def logged (r : Router) (w : Worker) (e : Event) : List Handling :=
  if (r.control e).isNone then [w.handle r e] else []

/-- All events that a worker routes, in order. -/
def log (r : Router) (every : Nat) (w : Worker) : List Event → List Handling
  | [] => []
  | e :: events => w.logged r e ++ (w.step r every e).log r every events

end Worker

/-- The events that are routed for a partition. -/
def Replay.log (s : ReplaySettings) (recording : Recording) (p : UInt16) : List Handling :=
  Worker.log s.toRouter s.flushEvery.toNat {} (eventsOf p recording.events)

def OutputLine.record? : OutputLine → Option Record
  | batch _ record => some record
  | lifecycle _ => none

def recordsIn (lines : List OutputLine) : List Record := lines.filterMap OutputLine.record?

/-! ### Reading lines -/

@[simp] theorem recordsIn_append (xs ys : List OutputLine) :
    recordsIn (xs ++ ys) = recordsIn xs ++ recordsIn ys :=
  List.filterMap_append

@[simp] theorem recordsIn_lifecycle (m : Lifecycle) : recordsIn [.lifecycle m] = [] := rfl

@[simp] theorem recordsIn_batches (rs : List (Address × Record)) :
    recordsIn (rs.map fun (a, r) => .batch a r) = rs.map (·.2) := by
  rw [recordsIn, List.filterMap_map]
  exact congrFun List.filterMap_eq_map' rs

/-! ### Control events -/

theorem Router.control_isSome (r : Router) (e : Event) :
    (r.control e).isSome = e.opcode.isControl := by
  unfold control Lifecycle.ofEvent?
  cases e.opcode <;> rfl

namespace Worker

variable {r : Router} {every : Nat} {w : Worker}

/-! ### One event after another -/

theorem logged_of_control {e : Event} {m : Lifecycle} (h : r.control e = some m) :
    w.logged r e = [] := by
  rw [logged, h]
  rfl

theorem logged_of_routed {e : Event} (h : r.control e = none) :
    w.logged r e = [w.handle r e] := by
  rw [logged, h]
  rfl

theorem log_append_singleton (events : List Event) (e : Event) :
    w.log r every (events ++ [e]) =
      w.log r every events ++ (events.foldl (step r every) w).logged r e := by
  induction events generalizing w with
  | nil => simp [log]
  | cons e' events ih => rw [List.cons_append, log, ih, log, List.append_assoc, List.foldl_cons]

theorem map_event_log (events : List Event) :
    (w.log r every events).map (·.event) = events.filter fun e => !e.opcode.isControl := by
  induction events generalizing w with
  | nil => rfl
  | cons e events ih =>
    rw [log, List.map_append, ih, List.filter_cons, ← r.control_isSome, logged]
    cases r.control e <;> rfl

/-! ### What is held -/

theorem appended_handle (e : Event) (a : Address) :
    (w.handle r e).appended a = entriesTo a (r.postings e (some w.buffer)) :=
  r.growth_route ..

theorem accumulator_routeEvent (e : Event) :
    (w.routeEvent r e).accumulator = w.accumulator.putAll (r.postings e (some w.buffer)) :=
  r.route_accumulator e (some w.buffer) w.accumulator

/-! ### Writing out -/

theorem flush_flush (w : Worker) : w.flush.flush = w.flush := by
  simp [flush, Accumulator.drain, Accumulator.empty]

theorem flush_step_of_control {e : Event} {m : Lifecycle} (h : r.control e = some m) :
    (w.step r every e).flush = w.announce m := by
  simp [step, h, announce, flush, Accumulator.drain, Accumulator.empty]

/-- Whether an event makes a worker write out or not, the same is written in the end. -/
theorem flush_step_of_routed {e : Event} (h : r.control e = none) :
    (w.step r every e).flush = (w.routeEvent r e).flush := by
  simp only [step, h, flushIfDue]
  split
  · exact flush_flush _
  · rfl

end Worker

end IndexFeed
