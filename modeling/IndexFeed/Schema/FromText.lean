import IndexFeed.Json.Skip
import IndexFeed.Schema.FromDatum

/-!
# Reading texts

A form read straight from JSON text. A scalar of another kind is read before it is refused, an
array or an object is not. Members that no field has asked for are skipped, or set aside for the
record that shares the object.
-/

namespace IndexFeed.Schema

open Json (Reader Input)

abbrev Typed (α : Type) := Reader Fault α

/-! ### Scalars -/

def numeralDatum (n : Json.Numeral) : Datum := .ofJson n.value

def readNumber : Typed Datum := do
  if (← Reader.peek) == some 0x2D then
    Reader.drop
    return numeralDatum (← Json.readNumeral true)
  else return numeralDatum (← Json.readNumeral false)

def beginsNumber (b : UInt8) : Bool := b == 0x2D || Json.isDigit b

/-- Refuses the value that begins with the byte `b`, which is next. -/
def refuseType {α : Type} (expected : String) (b : UInt8) : Typed α := do
  if b = 0x6E then
    Reader.drop
    Json.readNull
    .refuse (.wrongType .unit expected)
  else if b = 0x74 then
    Reader.drop
    Json.readTrue
    .refuse (.wrongType (.flag true) expected)
  else if b = 0x66 then
    Reader.drop
    Json.readFalse
    .refuse (.wrongType (.flag false) expected)
  else if beginsNumber b then
    let d ← readNumber
    .refuse (.wrongType d.found expected)
  else if b = 0x22 then
    Reader.drop
    let s ← Json.readString
    .refuse (.wrongType (.text s) expected)
  else if b = 0x5B then .refuse (.wrongType .sequence expected)
  else if b = 0x7B then .refuse (.wrongType .mapping expected)
  else .failPeek .expectedValue

def peekValue : Typed UInt8 := do
  match ← Reader.peekToken with
  | none => .failPeek .endInValue
  | some b => return b

def readTextual (expected : String) : Typed String := do
  let b ← peekValue
  if b = 0x22 then
    Reader.drop
    Json.readString
  else refuseType expected b

def readFlag : Typed Bool := do
  let b ← peekValue
  if b = 0x74 then
    Reader.drop
    Json.readTrue
    return true
  else if b = 0x66 then
    Reader.drop
    Json.readFalse
    return false
  else refuseType flagsText b

def readWord (w : Width) : Typed w.Word := do
  let b ← peekValue
  if beginsNumber b then
    match wordOf .document w (← readNumber) with
    | .ok x => return x
    | .error e => .refuse e.fault
  else refuseType w.name b

/-- Null, as the content of an option that carries none. -/
def readUnit : Typed Unit := do
  let b ← peekValue
  if b = 0x6E then
    Reader.drop
    Json.readNull
  else refuseType unitText b

/-! ### Brackets -/

/-- The input left where the closing of an array ends, in order or not. -/
def leaveList (i : Input) : Input :=
  let i := i.dropWhile Reader.isBlank
  match i.rest.head? with
  | some b =>
    if b = 0x5D then i.tail else if b = 0x2C then i.tail.dropWhile Reader.isBlank else i
  | none => i

/-- The input left where the closing of an object ends, in order or not. -/
def leaveObject (i : Input) : Input :=
  let i := i.dropWhile Reader.isBlank
  if i.rest.head? = some 0x7D then i.tail else i

/-- What `body` reads and then `close`. A fault that has no place yet gets the one where `leave`
leads to from there. -/
def enclosed {α : Type} (body : Typed α) (close : Typed Unit) (leave : Input → Input) : Typed α :=
  fun i =>
    match body i with
    | .ok (x, i) =>
      match close i with
      | .ok (_, i) => .ok (x, i)
      | .error e => .error e
    | .error (.unplaced what i) => .error (.fault what (leave i).position)
    | .error e => .error e

def inList {α : Type} (depth : Nat) (body : Nat → Typed α) : Typed α :=
  Json.descend depth fun depth => enclosed (body depth) Json.closeList leaveList

def inObject {α : Type} (depth : Nat) (body : Nat → Typed α) : Typed α :=
  Json.descend depth fun depth => enclosed (body depth) Json.closeObject leaveObject

/-- The values of all fields, once the object has been read. -/
def completedTyped {ts : List Type} (fields : Fields ts) (slots : Slots ts) : Typed (Tuple ts) :=
  match fields.complete slots with
  | .ok vs => return vs
  | .error name => .refuseUnplaced (.missingField name)

/-! ### Forms -/

/-- The end of an option that was written as an object. -/
def closeOption : Typed Unit := do
  match ← Reader.peekToken with
  | none => .fail .endInObject
  | some b => if b = 0x7D then Reader.drop else .fail .expectedValue

/-- The name of an option that is written as an object, behind its brace. -/
def readOptionName : Typed String := do
  if ← Json.nextMember true then Json.readName else .failPeek .expectedValue

mutual

/-- Reads a value of a form; `depth` levels may still be opened. -/
def Form.read {α : Type} (depth : Nat) : Form α → Typed α
  | .json => Json.readValue depth
  | .text => readTextual textText
  | .flag => readFlag
  | .word w => readWord w
  | .optional form => do
    if (← Reader.peekToken) == some 0x6E then
      Reader.drop
      Json.readNull
      return none
    else return some (← form.read depth)
  | .list form => do
    let b ← peekValue
    if b = 0x5B then
      inList depth fun depth => do Json.readItems (form.read depth) (← Reader.fuel) true
    else refuseType listText b
  | .choice _ options => do
    let b ← peekValue
    if b = 0x7B then
      let x ← Json.descend depth fun depth => do
        options.readNamed depth true (← readOptionName) options.names
      closeOption
      return x
    else if b = 0x22 then
      options.readNamed depth false (← Json.readName) options.names
    else .failPeek .expectedValue
  | .record name fields make => do
    let b ← peekValue
    if b = 0x5B then
      inList depth fun depth => do
        return make (← fields.readItems depth true (recordElementsText name fields) 0)
    else if b = 0x7B then
      inObject depth fun depth => do
        let slots ← Json.foldMembers (fun slots name => fields.readMember depth name slots)
          (← Reader.fuel) true (Slots.empty _)
        return make (← completedTyped fields slots)
    else refuseType (recordText name) b
  | .overlay name fields others make => do
    let b ← peekValue
    if b = 0x7B then
      inObject depth fun depth => do
        let (slots, rest) ← Json.foldMembers
          (fun (slots, rest) name => do
            if fields.has name then return (← fields.readMember depth name slots, rest)
            else
              Json.readColon
              return (slots, rest ++ [(name, Datum.ofJson (← Json.readRaw depth))]))
          (← Reader.fuel) true (Slots.empty _, [])
        let vs ← completedTyped fields slots
        match others.ofDatum .leftOver (.mapping rest) with
        | .ok x => return make vs x
        | .error e => .refuseUnplaced e.fault
    else refuseType (recordText name) b

/-- Reads the colon and the value of the member `name` into the empty place of its field, or skips
it. -/
def Fields.readMember {ts : List Type} (depth : Nat) (name : String) :
    Fields ts → Slots ts → Typed (Slots ts)
  | .nil, slots => do
    Json.readColon
    Json.skipValue
    return slots
  | .cons field form _ rest, (slot, slots) =>
    if field = name then
      match slot with
      | some _ => .refuseUnplaced (.duplicateField name)
      | none => do
        Json.readColon
        return (some (← form.read depth), slots)
    else do return (slot, ← rest.readMember depth name slots)

/-- Reads the fields from the items of an array, of which `index` have been read. -/
def Fields.readItems {ts : List Type} (depth : Nat) (first : Bool) (expected : String)
    (index : Nat) : Fields ts → Typed (Tuple ts)
  | .nil => return ()
  | .cons _ form default? rest => do
    let v ← if ← Json.nextItem first then form.read depth
      else match default? with
        | some v => pure v
        | none => .refuseUnplaced (.wrongLength index expected)
    return (v, ← rest.readItems depth false expected (index + 1))

/-- Reads the content of the option called `name`, if `inBraces` with its colon. -/
def Options.readNamed {α : Type} (depth : Nat) (inBraces : Bool) (name : String)
    (names : List String) : Options α → Typed α
  | .nil => .refuse (.unknownVariant name names)
  | .plain n v rest =>
    if n = name then do
      if inBraces then
        Json.readColon
        readUnit
      return v
    else rest.readNamed depth inBraces name names
  | .carrying n form make rest =>
    if n = name then
      if inBraces then do
        Json.readColon
        return make (← form.read depth)
      else .refuseUnplaced (.wrongType .bareVariant contentText)
    else rest.readNamed depth inBraces name names

end

def Form.parse {α : Type} (form : Form α) (bytes : Text.Bytes) : Except (Json.Failure Fault) α :=
  Json.readWhole (form.read Json.levels) bytes

/-- The message of a text that does not hold a value of the form. -/
def failureText (e : Json.Failure Fault) : String := e.message Fault.documentText

end IndexFeed.Schema
