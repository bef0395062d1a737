import IndexFeed.Json.Reader

/-!
# Skipping a value

A member that nobody asked for is passed over without keeping it: brackets may nest to any depth,
numbers may be out of range, strings need not be UTF-8.
-/

namespace IndexFeed.Json

open Text (Bytes)

variable {φ : Type}

/-! ### Scalars -/

/-- Passes the rest of a string, up to and with its closing quote. -/
def skipString : Bytes → Reader φ Unit
  | [] => .fail .endInString
  | _ :: fuel => do
    match ← Reader.peek with
    | none => .fail .endInString
    | some b =>
      if b = 0x22 then Reader.drop
      else if b = 0x5C then
        Reader.drop
        match ← Reader.take with
        | none => .fail .endInString
        | some c =>
          if c = 0x75 then
            let _ ← readHex
            skipString fuel
          else if (escapeLetter? c).isSome then skipString fuel
          else .fail .invalidEscape
      else if b < 0x20 then .fail .controlCharacter
      else
        Reader.drop
        skipString fuel

/-- Passes an exponent, from its letter on. -/
def skipExponent : Reader φ Unit := do
  Reader.drop
  let sign ← Reader.peek
  if sign == some 0x2B || sign == some 0x2D then Reader.drop
  match ← Reader.take with
  | none => .fail .invalidNumber
  | some b =>
    if isDigit b then
      let _ ← dropDigits
    else .fail .invalidNumber

def skipFraction : Reader φ Unit := do
  Reader.drop
  if (← dropDigits) = 0 then .failPeek .invalidNumber
  else if ← peekExponent then skipExponent

def skipNumeral : Reader φ Unit := do
  match ← Reader.take with
  | none => .fail .invalidNumber
  | some b =>
    if b = 0x30 then
      if ← peekDigit then .failPeek .invalidNumber
    else if isDigit b then
      let _ ← dropDigits
    else .fail .invalidNumber
    if (← Reader.peek) == some 0x2E then skipFraction
    else if ← peekExponent then skipExponent

/-! ### Values -/

/-- A bracket that is still open. -/
inductive Bracket where
  | list
  | object
  deriving DecidableEq, Repr

namespace Bracket

/-- The byte that closes the bracket. -/
def closer : Bracket → UInt8
  | list => 0x5D
  | object => 0x7D

/-- What is wrong if the input ends inside the bracket. -/
def atEnd : Bracket → Problem
  | list => .endInList
  | object => .endInObject

/-- What is wrong if neither a comma nor the closer follows an item. -/
def atOther : Bracket → Problem
  | list => .expectedListEnd
  | object => .expectedObjectEnd

end Bracket

/-- Passes the name of a member and its colon. -/
def skipName : Reader φ Unit := do
  match ← Reader.peekToken with
  | none => .failPeek .endInObject
  | some b =>
    if b = 0x22 then
      Reader.drop
      skipString (← Reader.fuel)
      readColon
    else .failPeek .keyNotString

/-- The next step inside the open brackets: `true` if a value follows. -/
def skipBetween : Bytes → Bool → Bracket → List Bracket → Reader φ (Option (List Bracket))
  | [], _, _, _ => return none
  | _ :: fuel, after, inner, outer => do
    match ← Reader.peekToken with
    | none => .failPeek inner.atEnd
    | some b =>
      if b = inner.closer then
        Reader.drop
        match outer with
        | [] => return none
        | next :: outer => skipBetween fuel true next outer
      else
        if after then
          if b = 0x2C then Reader.drop else .failPeek inner.atOther
        if inner = .object then skipName
        return some (inner :: outer)

/-- Passes a value inside the open brackets, and what is left of them. -/
def skipWithin : Bytes → List Bracket → Reader φ Unit
  | [], _ => return ()
  | _ :: fuel, opened => do
    match ← Reader.peekToken with
    | none => .failPeek .endInValue
    | some b =>
      let inner ← if b = 0x5B then
          Reader.drop
          pure (some Bracket.list)
        else if b = 0x7B then
          Reader.drop
          pure (some Bracket.object)
        else
          if b = 0x6E then
            Reader.drop
            readNull
          else if b = 0x74 then
            Reader.drop
            readTrue
          else if b = 0x66 then
            Reader.drop
            readFalse
          else if b = 0x2D then
            Reader.drop
            skipNumeral
          else if isDigit b then skipNumeral
          else if b = 0x22 then
            Reader.drop
            skipString (← Reader.fuel)
          else .failPeek .expectedValue
          pure none
      let open? ← match inner, opened with
        | some bracket, _ => skipBetween (← Reader.fuel) false bracket opened
        | none, [] => pure none
        | none, bracket :: outer => skipBetween (← Reader.fuel) true bracket outer
      match open? with
      | none => return ()
      | some opened => skipWithin fuel opened

def skipValue : Reader φ Unit := do skipWithin (← Reader.fuel) []

end IndexFeed.Json
