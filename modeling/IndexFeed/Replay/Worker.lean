import IndexFeed.Replay.Output
import IndexFeed.Replay.Stats
import IndexFeed.Routing.Router

/-!
# Workers

A worker replays the events of one partition in their order. What has been routed is written out
after a number of events, before every control event, and at the end.
-/

namespace IndexFeed

/-- Something to be warned of, with details by name. -/
structure Warning where
  text : String
  /-- The partition it is about, if it is about one. -/
  partition : Option UInt16 := none
  details : List (String × String) := []
  deriving DecidableEq, Repr

def partitionText (p : UInt16) : String := toString p.toNat

/-- The warning about an event that was not routed. A failure of the transform is told with the
source and the place of the event. -/
def RouteError.warning (source : String) (partition : UInt16) (e : RouteError) : Warning :=
  match e with
  | .keys _ _ p seqno =>
    { text := "Failed to compute keys for event. Skipping."
      partition := some partition
      details := [("source", source), ("partition_id", partitionText p),
        ("seqno", toString seqno.toNat), ("error", e.message)] }
  | .unknownOpcode .. =>
    { text := "Skipping event."
      partition := some partition
      details := [("partition_id", partitionText partition), ("error", e.message)] }

structure Worker where
  accumulator : Accumulator := .empty
  buffer : Buffer := .empty
  /-- Events since batches were written out. -/
  pending : Nat := 0
  stats : ReplayStats := {}
  lines : List OutputLine := []
  warnings : List Warning := []

namespace Worker

/-- Writes out what has been routed, one line for each endpoint. -/
def flush (w : Worker) : Worker :=
  let (records, accumulator) := w.accumulator.drain
  { w with
    accumulator
    pending := 0
    stats := { w.stats with batches := w.stats.batches + records.length }
    lines := w.lines ++ records.map fun (a, r) => .batch a r }

/-- Writes a lifecycle message after all that was routed before it. -/
def announce (w : Worker) (message : Lifecycle) : Worker :=
  let w := w.flush
  { w with
    stats := { w.stats with events := w.stats.events + 1, lifecycle := w.stats.lifecycle + 1 }
    lines := w.lines ++ [.lifecycle message] }

/-- The counts with one more event that came to `result`. -/
def count (stats : ReplayStats) (result : Except RouteError RouteOutcome) : ReplayStats :=
  let stats := { stats with events := stats.events + 1 }
  match result with
  | .ok outcome =>
    if outcome.action = .dropped then { stats with dropped := stats.dropped + 1 }
    else { stats with routed := stats.routed + 1 }
  | .error _ => { stats with failed := stats.failed + 1 }

def routeEvent (r : Router) (w : Worker) (e : Event) : Worker :=
  let out := r.route e (some w.buffer) w.accumulator
  { w with
    accumulator := out.accumulator
    buffer := out.buffer.getD w.buffer
    pending := w.pending + 1
    stats := count w.stats out.result
    warnings := w.warnings ++ match out.result with
      | .ok _ => []
      | .error error => [error.warning r.source e.partition] }

/-- Writes out what has been routed if `every` events have passed; zero is never. -/
def flushIfDue (every : Nat) (w : Worker) : Worker :=
  if 0 < every ∧ every ≤ w.pending then w.flush else w

/-- One event: announced if it is about the stream, routed if not. -/
def step (r : Router) (every : Nat) (w : Worker) (e : Event) : Worker :=
  match r.control e with
  | some message => w.announce message
  | none => (routeEvent r w e).flushIfDue every

def run (r : Router) (every : Nat) (events : List Event) : Worker :=
  (events.foldl (step r every) {}).flush

end Worker

end IndexFeed
