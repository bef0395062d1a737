import IndexFeed.Replay.Recording
import IndexFeed.Replay.Settings
import IndexFeed.Replay.Worker

/-!
# Replays

A replay reads a recording and hands each event to the worker of its partition, which is started
when the partition is first seen. A worker is given the events of its partition alone, and nothing
that it holds is shared with another. What was read before an error is replayed all the same.
-/

namespace IndexFeed

open Text (Bytes)

inductive ReplayError where
  | recording (error : RecordingError)
  | sink (error : SinkError)

/-- The wording of an error: the recording is at `path`, and `reason` is what the sink says. -/
def ReplayError.message (path reason : String) : ReplayError → String
  | recording e => e.message path
  | sink e => e.message reason

structure Replayed where
  /-- The lines that were written for each partition, partitions in ascending order. -/
  output : List (UInt16 × List Bytes)
  /-- The counts over all partitions, unless the replay failed. -/
  stats : Except ReplayError ReplayStats
  warnings : List Warning

namespace Replay

/-- The warning about a ring that no event gets to. -/
def setupWarnings (ring : Ring) : List Warning :=
  if ring.endpoints.isEmpty then
    [{ text := "No endpoints configured. Events will not resolve to any endpoint." }]
  else []

/-- Hands an event to the worker of its partition, and starts the worker if there is none. The
workers stand in the order of their partitions. -/
def hand (r : Router) (every : Nat) (e : Event) : List (UInt16 × Worker) → List (UInt16 × Worker)
  | [] => [(e.partition, Worker.step r every {} e)]
  | (p, w) :: rest =>
    if e.partition < p then (e.partition, Worker.step r every {} e) :: (p, w) :: rest
    else if e.partition = p then (p, Worker.step r every w e) :: rest
    else (p, w) :: hand r every e rest

/-- The workers of all partitions after the events, each with nothing left to write. -/
def workers (s : ReplaySettings) (events : List Event) : List (UInt16 × Worker) :=
  (events.foldl (fun ws e => hand s.toRouter s.flushEvery.toNat e ws) []).map fun (p, w) =>
    (p, w.flush)

/-- The lines of each partition that a sink takes, one partition after the other. A partition
without a line is left out. -/
def deliver (sink : Sink) (work : List (UInt16 × Worker)) :
    List (UInt16 × List Bytes) × Option SinkError :=
  let lines := work.flatMap fun (p, w) => w.lines.map fun line => (p, line.print)
  let (taken, error) := sink.take 0 (lines.map (·.2))
  let taken := lines.take taken.length
  ((work.map fun (p, _) => (p, (taken.filter (·.1 = p)).map (·.2))).filter (!·.2.isEmpty), error)

/-- Which error is told: one of the sink before one of the recording, unless there was no recording
at all, for then nothing is given to the sink. -/
def outcome (stats : ReplayStats) : Option SinkError → Option RecordingError →
    Except ReplayError ReplayStats
  | _, some .notFound => .error (.recording .notFound)
  | some e, _ => .error (.sink e)
  | none, some e => .error (.recording e)
  | none, none => .ok stats

/-- Replays a recording into a sink. -/
def run (s : ReplaySettings) (recording : Recording) (sink : Sink) : Replayed :=
  let work := workers s recording.events
  let (output, sinkError) := deliver sink work
  { output
    stats := outcome (ReplayStats.sum (work.map (·.2.stats))) sinkError recording.error
    warnings := setupWarnings s.topology ++ work.flatMap (·.2.warnings) }

end Replay

end IndexFeed
