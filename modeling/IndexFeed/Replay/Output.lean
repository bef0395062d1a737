import IndexFeed.Json.Printer
import IndexFeed.Lifecycle

/-!
# Output

What a replay writes: batches and lifecycle messages, one JSON object a line, in the order they
come. Whatever takes the lines may fail; the lines before that have been written.
-/

namespace IndexFeed

open Text (Bytes)

inductive OutputLine where
  /-- The record of one endpoint. -/
  | batch (endpoint : Address) (record : Record)
  | lifecycle (message : Lifecycle)
  deriving DecidableEq, Repr

namespace OutputLine

def toJson : OutputLine → Json.Value
  | batch endpoint record =>
    .object [("kind", .text "batch"), ("endpoint", .text endpoint), ("record", record.toJson)]
  | lifecycle message => .object [("kind", .text "lifecycle"), ("message", message.toJson)]

def print (line : OutputLine) : Bytes := line.toJson.print

end OutputLine

/-- What takes the lines: at most `limit` bytes if there is a limit, and it may fail in the end. -/
structure Sink where
  limit : Option Nat := none
  failsAtEnd : Bool := false

/-- Why lines were not taken. -/
inductive SinkError where
  | write
  | flush
  deriving DecidableEq, Repr

/-- The wording of an error, given what the sink says of it. -/
def SinkError.message (reason : String) : SinkError → String
  | write => "Failed to write output.: " ++ reason
  | flush => "Failed to flush output.: " ++ reason

namespace Sink

def fits (s : Sink) (n : Nat) : Bool := s.limit.all (n ≤ ·)

/-- Gives lines to a sink that holds `used` bytes: the lines that it took, and why no more. A line
and the line feed after it are given one after the other. -/
def take (s : Sink) (used : Nat) : List Bytes → List Bytes × Option SinkError
  | [] => ([], if s.failsAtEnd then some .flush else none)
  | line :: rest =>
    let used := used + line.length
    if !s.fits used then ([], some .write)
    else if !s.fits (used + 1) then ([line], some .write)
    else
      let (taken, error) := s.take (used + 1) rest
      (line :: taken, error)

end Sink

end IndexFeed
