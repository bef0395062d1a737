import IndexFeed.Replay.Run
import IndexFeed.Replay.Setup

/-!
# The replay command

The command takes the paths of a configuration and of a recording, and writes the lines of the
replay. It says why it failed if it did.
-/

namespace IndexFeed

open Config (Environment)
open Text (Bytes)

/-- What a run of the command comes to. -/
structure Finished where
  /-- The lines written for each partition. -/
  output : List (UInt16 × List Bytes) := []
  /-- Why the command failed, if it did. -/
  complaint : Option String := none

namespace Finished

/-- Zero if all went well. -/
def exitCode (f : Finished) : Nat := if f.complaint.isSome then 1 else 0

end Finished

namespace Command

def usage : String := "Usage: dataport-replay <config.yaml> <events.jsonl>"

/-- The command with its arguments, given what is in the file at each path; arguments after the
second are passed over. -/
def run (env : Environment) (contentOf : String → Option Bytes) : List String → Finished
  | configPath :: eventsPath :: _ =>
    match ReplaySettings.load env (contentOf configPath) with
    | .error e => { complaint := some (e.message configPath) }
    | .ok settings =>
      let out := Replay.run settings (.ofText (contentOf eventsPath)) {}
      { output := out.output
        complaint := match out.stats with
          | .ok _ => none
          | .error e => some (e.message eventsPath "") }
  | _ => { complaint := some usage }

end Command

end IndexFeed
