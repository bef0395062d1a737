import IndexFeed.Text.Utf8

/-!
# Reading input

The bytes still to be read with the place they start at, the problems that reading meets, and the
readers: functions that take a part of the input. A reader may also report a fault of another
kind, `φ`, which has a place only once the value around it has been left.
-/

namespace IndexFeed.Json

open Text (Bytes)

/-- A place in the input: lines count from one, columns count the bytes after the last line feed. -/
structure Position where
  line : Nat
  column : Nat
  deriving DecidableEq, Repr

namespace Position

def start : Position := ⟨1, 0⟩

def after (p : Position) (b : UInt8) : Position :=
  if b = 10 then ⟨p.line + 1, 0⟩ else ⟨p.line, p.column + 1⟩

end Position

structure Input where
  position : Position
  rest : Bytes
  deriving DecidableEq, Repr

namespace Input

def ofBytes (bytes : Bytes) : Input := ⟨.start, bytes⟩

/-- The place after the next byte, which is the end of the input if there is none. -/
def peekPosition (i : Input) : Position :=
  match i.rest with
  | [] => i.position
  | b :: _ => i.position.after b

def tail (i : Input) : Input :=
  match i.rest with
  | [] => i
  | b :: rest => ⟨i.position.after b, rest⟩

/-- The first input without a leading byte of `p`. -/
def dropWhile (p : UInt8 → Bool) (i : Input) : Input :=
  go i.position i.rest
where
  go (at_ : Position) : Bytes → Input
    | [] => ⟨at_, []⟩
    | b :: rest => if p b then go (at_.after b) rest else ⟨at_, b :: rest⟩

end Input

/-- What is wrong with a text that is not JSON. -/
inductive Problem where
  | endInValue
  | endInList
  | endInObject
  | endInString
  | expectedValue
  | expectedIdent
  | expectedColon
  | expectedListEnd
  | expectedObjectEnd
  | keyNotString
  | trailingComma
  | trailingCharacters
  | invalidNumber
  | numberOutOfRange
  | invalidEscape
  | endInHexEscape
  | loneSurrogate
  | controlCharacter
  | invalidCodePoint
  | tooDeep
  deriving DecidableEq, Repr

def Problem.message : Problem → String
  | endInValue => "EOF while parsing a value"
  | endInList => "EOF while parsing a list"
  | endInObject => "EOF while parsing an object"
  | endInString => "EOF while parsing a string"
  | expectedValue => "expected value"
  | expectedIdent => "expected ident"
  | expectedColon => "expected `:`"
  | expectedListEnd => "expected `,` or `]`"
  | expectedObjectEnd => "expected `,` or `\x7d`"
  | keyNotString => "key must be a string"
  | trailingComma => "trailing comma"
  | trailingCharacters => "trailing characters"
  | invalidNumber => "invalid number"
  | numberOutOfRange => "number out of range"
  | invalidEscape => "invalid escape"
  | endInHexEscape => "unexpected end of hex escape"
  | loneSurrogate => "lone leading surrogate in hex escape"
  | controlCharacter => "control character (\\u0000-\\u001F) found while parsing a string"
  | invalidCodePoint => "invalid unicode code point"
  | tooDeep => "recursion limit exceeded"

/-- Why reading stopped. -/
inductive Failure (φ : Type) where
  /-- The text is not JSON. -/
  | problem (what : Problem) (at_ : Position)
  /-- The text is JSON so far, but not of the form that is wanted. -/
  | fault (what : φ) (at_ : Position)
  /-- A fault whose place is where the reading of the value around it ends, with the input that was
  left when it was found. -/
  | unplaced (what : φ) (rest : Input)
  deriving Repr

def Position.message (p : Position) : String :=
  " at line " ++ toString p.line ++ " column " ++ toString p.column

/-- The message of a failure, faults worded by `word`. -/
def Failure.message {φ : Type} (word : φ → String) : Failure φ → String
  | problem what at_ => what.message ++ at_.message
  | fault what at_ => word what ++ at_.message
  | unplaced what rest => word what ++ rest.position.message

/-- A reader takes a part of the input or fails. -/
abbrev Reader (φ α : Type) := StateT Input (Except (Failure φ)) α

namespace Reader

variable {φ : Type}

/-- Fails at the place reached so far. -/
def fail {α : Type} (what : Problem) : Reader φ α := fun i => .error (.problem what i.position)

/-- Fails at the next byte, which was looked at but not taken. -/
def failPeek {α : Type} (what : Problem) : Reader φ α :=
  fun i => .error (.problem what i.peekPosition)

/-- Fails with a fault at the place reached so far. -/
def refuse {α : Type} (what : φ) : Reader φ α := fun i => .error (.fault what i.position)

/-- Fails with a fault that has no place yet. -/
def refuseUnplaced {α : Type} (what : φ) : Reader φ α := fun i => .error (.unplaced what i)

def peek : Reader φ (Option UInt8) := fun i => .ok (i.rest.head?, i)

def take : Reader φ (Option UInt8) := fun i => .ok (i.rest.head?, i.tail)

def drop : Reader φ Unit := fun i => .ok ((), i.tail)

/-- Space, tab, line feed, carriage return. -/
def isBlank (b : UInt8) : Bool := b == 32 || b == 9 || b == 10 || b == 13

/-- Drops white space, and looks at the byte after it. -/
def peekToken : Reader φ (Option UInt8) := fun i =>
  let i := i.dropWhile isBlank
  .ok (i.rest.head?, i)

/-- A bound for the number of steps that take a byte each: an element for each byte that is left,
and one more. -/
def fuel : Reader φ Bytes := fun i => .ok (0 :: i.rest, i)

end Reader

end IndexFeed.Json
