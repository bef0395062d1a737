import IndexFeed.Replay.RecordedEvent
import IndexFeed.Text.Blank

/-!
# Recordings

A recording is a text with one event a line. It is read up to the first line that is not UTF-8 or
does not hold an event; blank lines count, and are passed over.
-/

namespace IndexFeed

open Text (Bytes)

/-- Why a recording could not be read to its end. -/
inductive RecordingError where
  /-- There is no such recording. -/
  | notFound
  /-- A line is not UTF-8: where in the line it goes wrong, and the bytes there. -/
  | notText (offset : Nat) (flaw : Text.Piece)
  /-- A line, counted from one, does not hold an event. -/
  | badRecord (line : Nat) (error : RecordError)

def flawText (offset : Nat) : Text.Piece → String
  | .truncated _ => "incomplete utf-8 byte sequence from index " ++ toString offset
  | flaw =>
    "invalid utf-8 sequence of " ++ toString flaw.size ++ " bytes from index " ++ toString offset

/-- The wording of an error about the recording at `path`. -/
def RecordingError.message (path : String) : RecordingError → String
  | notFound =>
    "Failed to open events file '" ++ path ++ "'.: No such file or directory (os error 2)"
  | notText offset flaw => "Failed to read events file.: " ++ flawText offset flaw
  | badRecord line e => "Invalid record on line " ++ toString line ++ ".: " ++ e.message

/-- The events of a recording up to the first error. -/
structure Recording where
  events : List Event
  error : Option RecordingError

namespace Recording

def lineFeed : UInt8 := 10

/-- The lines of a text, each with the line feed that ends it. -/
def lines : Bytes → List Bytes
  | [] => []
  | b :: rest =>
    if b = lineFeed then [b] :: lines rest
    else
      match lines rest with
      | [] => [[b]]
      | line :: more => (b :: line) :: more

/-- A line without its line feed, or its carriage return and line feed. -/
def stripEnd (line : Bytes) : Bytes :=
  match line.reverse with
  | 10 :: 13 :: rest => rest.reverse
  | 10 :: rest => rest.reverse
  | _ => line

/-- The event of the line `number`, none if the line is blank. -/
def readLine (number : Nat) (line : Bytes) : Except RecordingError (Option Event) :=
  match Text.firstFlaw line with
  | some (offset, flaw) => .error (.notText offset flaw)
  | none =>
    let line := stripEnd line
    if Text.isBlankText (Text.decodeLossy line) then .ok none
    else
      match RecordedEvent.ofLine line >>= RecordedEvent.toEvent with
      | .ok e => .ok (some e)
      | .error e => .error (.badRecord number e)

/-- The recording of lines, the first of them numbered `number`. -/
def ofLines (number : Nat) : List Bytes → Recording
  | [] => ⟨[], none⟩
  | line :: rest =>
    match readLine number line with
    | .error e => ⟨[], some e⟩
    | .ok none => ofLines (number + 1) rest
    | .ok (some e) =>
      let r := ofLines (number + 1) rest
      ⟨e :: r.events, r.error⟩

/-- The recording that a text holds; no text is a recording that was not found. -/
def ofText : Option Bytes → Recording
  | some text => ofLines 1 (lines text)
  | none => ⟨[], some .notFound⟩

end Recording

end IndexFeed
