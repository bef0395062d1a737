import IndexFeed.Json.Scalar

/-!
# Arrays, objects and whole texts

The items of an array and the members of an object, over any reader of what stands in them; the
values of at most 127 levels; texts that hold one value and white space.
-/

namespace IndexFeed.Json

open Text (Bytes)

variable {φ α : Type}

/-! ### Between the brackets -/

/-- Goes on to the next item of an array, over the comma if an item came before: whether there is
one. If there is none, the closing bracket is next. -/
def nextItem (first : Bool) : Reader φ Bool := do
  match ← Reader.peekToken with
  | none => .failPeek .endInList
  | some b =>
    if b = 0x5D then return false
    else if first then return true
    else if b = 0x2C then
      Reader.drop
      match ← Reader.peekToken with
      | none => .failPeek .endInValue
      | some c => if c = 0x5D then .failPeek .trailingComma else return true
    else .failPeek .expectedListEnd

def readItems (item : Reader φ α) : Bytes → Bool → Reader φ (List α)
  | [], _ => return []
  | _ :: fuel, first => do
    if ← nextItem first then
      let x ← item
      return x :: (← readItems item fuel false)
    else return []

/-- Goes on to the name of the next member of an object, as `nextItem` does. -/
def nextMember (first : Bool) : Reader φ Bool := do
  match ← Reader.peekToken with
  | none => .failPeek .endInObject
  | some b =>
    if b = 0x7D then return false
    else if first then
      if b = 0x22 then return true else .failPeek .keyNotString
    else if b = 0x2C then
      Reader.drop
      match ← Reader.peekToken with
      | none => .failPeek .endInValue
      | some c =>
        if c = 0x22 then return true
        else if c = 0x7D then .failPeek .trailingComma
        else .failPeek .keyNotString
    else .failPeek .expectedObjectEnd

def readColon : Reader φ Unit := do
  match ← Reader.peekToken with
  | none => .failPeek .endInObject
  | some b => if b = 0x3A then Reader.drop else .failPeek .expectedColon

def readName : Reader φ String := do
  Reader.drop
  readString

/-- Takes the members of an object one after another, up to its closing brace; `member` reads the
colon and the value of a member from its name and what came before it. -/
def foldMembers (member : α → String → Reader φ α) : Bytes → Bool → α → Reader φ α
  | [], _, acc => return acc
  | _ :: fuel, first, acc => do
    if ← nextMember first then
      let name ← readName
      foldMembers member fuel false (← member acc name)
    else return acc

def readMembers (value : Reader φ α) : Bytes → Bool → Reader φ (List (String × α))
  | [], _ => return []
  | _ :: fuel, first => do
    if ← nextMember first then
      let name ← readName
      readColon
      let x ← value
      return (name, x) :: (← readMembers value fuel false)
    else return []

def closeList : Reader φ Unit := do
  match ← Reader.peekToken with
  | none => .failPeek .endInList
  | some b =>
    if b = 0x5D then Reader.drop
    else if b = 0x2C then
      Reader.drop
      if (← Reader.peekToken) == some 0x5D then .failPeek .trailingComma
      else .failPeek .trailingCharacters
    else .failPeek .trailingCharacters

def closeObject : Reader φ Unit := do
  match ← Reader.peekToken with
  | none => .failPeek .endInObject
  | some b =>
    if b = 0x7D then Reader.drop
    else if b = 0x2C then .failPeek .trailingComma
    else .failPeek .trailingCharacters

/-! ### Values -/

/-- The levels that a value may have. -/
def levels : Nat := 127

/-- What `body` reads after an opening bracket; `depth` levels may still be opened. -/
def descend (depth : Nat) (body : Nat → Reader φ α) : Reader φ α :=
  match depth with
  | 0 => .failPeek .tooDeep
  | depth + 1 => do
    Reader.drop
    body depth

/-- A value without the levels below it: `brackets` reads an array or an object. -/
def readScalarOr (brackets : Bool → Reader φ Value) : Reader φ Value := do
  match ← Reader.peekToken with
  | none => .failPeek .endInValue
  | some b =>
    if b = 0x6E then
      Reader.drop
      readNull
      return .null
    else if b = 0x74 then
      Reader.drop
      readTrue
      return .bool true
    else if b = 0x66 then
      Reader.drop
      readFalse
      return .bool false
    else if b = 0x2D then
      Reader.drop
      return (← readNumeral true).value
    else if isDigit b then return (← readNumeral false).value
    else if b = 0x22 then
      Reader.drop
      return .text (← readString)
    else if b = 0x5B then brackets false
    else if b = 0x7B then brackets true
    else .failPeek .expectedValue

/-- A value as it is written, of at most `depth` levels. -/
def readRaw : Nat → Reader φ Value
  | 0 => readScalarOr fun _ => .failPeek .tooDeep
  | depth + 1 => readScalarOr fun isObject => do
    Reader.drop
    if isObject then
      let members ← readMembers (readRaw depth) (← Reader.fuel) true
      closeObject
      return .object members
    else
      let items ← readItems (readRaw depth) (← Reader.fuel) true
      closeList
      return .array items

def readValue (depth : Nat) : Reader φ Value := return (← readRaw depth).canonical

/-! ### Whole texts -/

/-- What `body` reads, with nothing but white space after it. -/
def readWhole (body : Reader φ α) (bytes : Bytes) : Except (Failure φ) α :=
  (do
    let x ← body
    if (← Reader.peekToken).isSome then .failPeek .trailingCharacters else return x :
      Reader φ α).run' (.ofBytes bytes)

/-- The value that a text holds, as it is written. -/
def parseRaw (bytes : Bytes) : Except (Failure Empty) Value := readWhole (readRaw levels) bytes

def parse (bytes : Bytes) : Except (Failure Empty) Value := readWhole (readValue levels) bytes

/-- The message of a text that is not JSON. -/
def Failure.text (e : Failure Empty) : String := e.message Empty.elim

end IndexFeed.Json
