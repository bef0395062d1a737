import IndexFeed.Replay.Command

/-!
# The command line

Reads the files and the environment, and writes what the command says.
-/

open IndexFeed

def readFile? (path : String) : IO (Option Text.Bytes) := do
  try
    return some (← IO.FS.readBinFile path).toList
  catch _ => return none

/-- The variables that a block of `name=value` texts with a zero byte after each of them sets. -/
def variablesOf (block : Text.Bytes) : Config.Environment :=
  (Text.decodeLossy block).toList.splitOn '\x00' |>.filterMap fun entry =>
    match entry.span (· ≠ '=') with
    | (name, '=' :: value) => some (String.ofList name, String.ofList value)
    | _ => none

def main (args : List String) : IO UInt32 := do
  let env := variablesOf ((← readFile? "/proc/self/environ").getD [])
  let files ← (args.take 2).mapM fun path => return (path, ← readFile? path)
  let finished := Command.run env (fun path => (files.lookup path).join) args
  let output ← IO.getStdout
  for (_, lines) in finished.output do
    for line in lines do
      output.write (ByteArray.mk (line ++ [0x0A]).toArray)
  output.flush
  match finished.complaint with
  | some text => IO.eprintln text
  | none => return 0
  return 1
