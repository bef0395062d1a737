import IndexFeed.Json.Input
import IndexFeed.Json.Value

/-!
# Strings and numbers of a JSON text

Strings are read as bytes, escapes replaced, and then have to be UTF-8. Integers of 64 bits are
kept exactly. Any other number becomes a float by a fixed recipe: as many leading digits as fit 64
bits, scaled by powers of ten in float arithmetic, which is not always the nearest float.
-/

namespace IndexFeed.Json

open Text (Bytes)

/-! ### Strings -/

def hexValue? (b : UInt8) : Option Nat :=
  if 0x30 ≤ b && b ≤ 0x39 then some (b.toNat - 0x30)
  else if 0x41 ≤ b && b ≤ 0x46 then some (b.toNat - 0x37)
  else if 0x61 ≤ b && b ≤ 0x66 then some (b.toNat - 0x57)
  else none

/-- The number that four hexadecimal digits spell. -/
def hexFour? (a b c d : UInt8) : Option Nat := do
  return ((← hexValue? a) * 16 + (← hexValue? b)) * 256 + (← hexValue? c) * 16 + (← hexValue? d)

variable {φ : Type}

/-- The four hexadecimal digits of an escape. An escape cut off by the end of the input is reported
at that end. -/
def readHex : Reader φ Nat := fun i =>
  match i.rest with
  | a :: b :: c :: d :: _ =>
    let i := i.tail.tail.tail.tail
    match hexFour? a b c d with
    | some n => .ok (n, i)
    | none => .error (.problem .invalidEscape i.position)
  | _ => .error (.problem .endInString (i.dropWhile fun _ => true).position)

/-- The next byte of a string, which has to be `b`: another byte is taken and refused. -/
def expectInPair (b : UInt8) : Reader φ Unit := do
  match ← Reader.peek with
  | none => .fail .endInString
  | some c =>
    Reader.drop
    if c = b then return () else .fail .endInHexEscape

/-- The character of an escape `\u`, whose first four digits follow: a leading surrogate needs a
second escape with the trailing one. -/
def readCodePoint : Reader φ Char := do
  let n ← readHex
  if 0xDC00 ≤ n && n ≤ 0xDFFF then .fail .loneSurrogate
  else if n < 0xD800 || 0xDBFF < n then return Char.ofNat n
  else
    expectInPair 0x5C
    expectInPair 0x75
    let m ← readHex
    if m < 0xDC00 || 0xDFFF < m then .fail .loneSurrogate
    else return Char.ofNat ((n - 0xD800) * 1024 + (m - 0xDC00) + 0x10000)

/-- The byte that a one-letter escape stands for. -/
def escapeLetter? (b : UInt8) : Option UInt8 :=
  if b = 0x22 || b = 0x5C || b = 0x2F then some b
  else if b = 0x62 then some 8
  else if b = 0x66 then some 12
  else if b = 0x6E then some 10
  else if b = 0x72 then some 13
  else if b = 0x74 then some 9
  else none

/-- The bytes of an escape, after its backslash. -/
def readEscape : Reader φ Bytes := do
  match ← Reader.take with
  | none => .fail .endInString
  | some b =>
    if b = 0x75 then return Text.encodeChar (← readCodePoint)
    else match escapeLetter? b with
      | some c => return [c]
      | none => .fail .invalidEscape

/-- The bytes of a string after its opening quote, up to and with its closing one. -/
def readStringBytes : Bytes → Reader φ Bytes
  | [] => .fail .endInString
  | _ :: fuel => do
    match ← Reader.take with
    | none => .fail .endInString
    | some b =>
      if b = 0x22 then return []
      else if b = 0x5C then
        let escaped ← readEscape
        return escaped ++ (← readStringBytes fuel)
      else if b < 0x20 then .fail .controlCharacter
      else return b :: (← readStringBytes fuel)

/-- Where UTF-8 goes wrong in a string that ends at `p` and consists of `bytes`, its escapes
replaced: as many bytes before the end as there are from the flaw on. -/
def flawPosition (bytes : Bytes) (p : Position) : Position :=
  match Text.firstFlaw bytes with
  | some (offset, _) => ⟨p.line, p.column - (bytes.length - offset)⟩
  | none => p

def readString : Reader φ String := do
  let bytes ← readStringBytes (← Reader.fuel)
  match Text.decode? bytes with
  | some s => return s
  | none => throw (.problem .invalidCodePoint (flawPosition bytes (← get).position))

/-! ### Numbers -/

/-- A number as it was read. -/
inductive Numeral where
  | natural (n : Nat) (h : n < 0x10000000000000000)
  | negative (n : Int) (lower : -0x8000000000000000 ≤ n) (upper : n < 0)
  | float (x : Float)

def Numeral.value : Numeral → Value
  | natural n h => .int (.ofNat n h)
  | negative n lower upper => .int ⟨n, lower, by omega⟩
  | float x => .float x

def isDigit (b : UInt8) : Bool := 0x30 ≤ b && b ≤ 0x39

def digitValue (b : UInt8) : Nat := b.toNat - 0x30

/-- The powers of ten that scaling multiplies and divides by, each the float nearest to it. -/
def powerOfTen (n : Nat) : Float := Float.ofScientific 1 false n

/-- The greatest exponent of ten that a float can hold. -/
def greatestPower : Nat := 308

/-- `x · 10 ^ exponent` by multiplication or division, large negative exponents in steps; `none` if
the result is out of range. -/
def scale : Nat → Float → Int → Option Float
  | 0, x, _ => some x
  | fuel + 1, x, exponent =>
    if exponent.natAbs ≤ greatestPower then
      if 0 ≤ exponent then
        let y := x * powerOfTen exponent.natAbs
        if y.isInf then none else some y
      else some (x / powerOfTen exponent.natAbs)
    else if x == 0 then some x
    else if 0 ≤ exponent then none
    else scale fuel (x / powerOfTen greatestPower) (exponent + greatestPower)

/-- Steps that suffice for any exponent: a few of them take every float to zero. -/
def scaleSteps : Nat := 16

def finishFloat (minus : Bool) (significand : Nat) (exponent : Int) : Reader φ Numeral :=
  match scale scaleSteps (Float.ofNat significand) exponent with
  | some x => return .float (if minus then -x else x)
  | none => .fail .numberOutOfRange

/-- Digits taken into a significand below `2 ^ 64`, and their count. -/
def takeDigits : Bytes → Nat → Reader φ (Nat × Nat)
  | [], significand => return (significand, 0)
  | _ :: fuel, significand => do
    match ← Reader.peek with
    | some b =>
      let next := significand * 10 + digitValue b
      if isDigit b && next < 0x10000000000000000 then
        Reader.drop
        let (n, count) ← takeDigits fuel next
        return (n, count + 1)
      else return (significand, 0)
    | none => return (significand, 0)

def dropDigits : Reader φ Nat := fun i =>
  .ok ((i.rest.takeWhile isDigit).length, i.dropWhile isDigit)

def peekDigit : Reader φ Bool := return (← Reader.peek).any isDigit

def peekExponent : Reader φ Bool := return (← Reader.peek).any fun b => b == 0x65 || b == 0x45

/-- The digits of an exponent up to `2 ^ 31 - 1`, read after `n`; `none` if they exceed that. -/
def takeExponent : Bytes → Nat → Reader φ (Option Nat)
  | [], n => return some n
  | _ :: fuel, n => do
    match ← Reader.peek with
    | some b =>
      if isDigit b then
        Reader.drop
        let next := n * 10 + digitValue b
        if next < 0x80000000 then takeExponent fuel next else return none
      else return some n
    | none => return some n

/-- The exponent part, from its letter on. A missing digit is reported at the end of the input or
after the byte in its place. -/
def readExponent (minus : Bool) (significand : Nat) (before : Int) : Reader φ Numeral := do
  Reader.drop
  let sign ← Reader.peek
  if sign == some 0x2B || sign == some 0x2D then Reader.drop
  match ← Reader.take with
  | none => .fail .endInValue
  | some b =>
    if !isDigit b then .fail .invalidNumber
    else
      match ← takeExponent (← Reader.fuel) (digitValue b) with
      | some e =>
        finishFloat minus significand (if sign == some 0x2D then before - e else before + e)
      | none =>
        if significand ≠ 0 ∧ sign ≠ some 0x2D then .fail .numberOutOfRange
        else
          let _ ← dropDigits
          return .float (if minus then -0.0 else 0.0)

/-- The exponent part, if there is one, and the float. -/
def readAfterDigits (minus : Bool) (significand : Nat) (exponent : Int) : Reader φ Numeral := do
  if ← peekExponent then readExponent minus significand exponent
  else finishFloat minus significand exponent

/-- The fraction, from its point on. Digits that no longer fit the significand are dropped. -/
def readFraction (minus : Bool) (significand : Nat) (before : Int) : Reader φ Numeral := do
  Reader.drop
  let (significand, count) ← takeDigits (← Reader.fuel) significand
  let more ← peekDigit
  let _ ← dropDigits
  if count = 0 && !more then
    if (← Reader.peek).isSome then .failPeek .invalidNumber else .failPeek .endInValue
  else readAfterDigits minus significand (before - count)

/-- An integer part that ended before a point, an exponent or anything else. -/
def readAfterInteger (minus : Bool) (significand : Nat) : Reader φ Numeral := do
  if (← Reader.peek) == some 0x2E then readFraction minus significand 0
  else if ← peekExponent then readExponent minus significand 0
  else if minus then
    if h : 0 < significand ∧ significand ≤ 0x8000000000000000 then
      return .negative (-significand) (by omega) (by omega)
    else return .float (-Float.ofNat significand)
  else if h : significand < 0x10000000000000000 then return .natural significand h
  else return .float (Float.ofNat significand)

/-- A number, after its minus if it has one: a zero, or digits that do not begin with one. The
integer digits that no longer fit the significand raise the exponent by one each. -/
def readNumeral (minus : Bool) : Reader φ Numeral := do
  match ← Reader.take with
  | none => .fail .endInValue
  | some b =>
    if b = 0x30 then
      if ← peekDigit then .failPeek .invalidNumber else readAfterInteger minus 0
    else if isDigit b then
      let (significand, _) ← takeDigits (← Reader.fuel) (digitValue b)
      if ← peekDigit then
        let count ← dropDigits
        if (← Reader.peek) == some 0x2E then readFraction minus significand count
        else readAfterDigits minus significand count
      else readAfterInteger minus significand
    else .fail .invalidNumber

/-- The letters `word`, the first of which has been read. -/
def readIdent : List UInt8 → Reader φ Unit
  | [] => return ()
  | w :: rest => do
    match ← Reader.take with
    | none => .fail .endInValue
    | some b => if b = w then readIdent rest else .fail .expectedIdent

/-- The rest of `null`, of `true` and of `false`. -/
def readNull : Reader φ Unit := readIdent [0x75, 0x6C, 0x6C]
def readTrue : Reader φ Unit := readIdent [0x72, 0x75, 0x65]
def readFalse : Reader φ Unit := readIdent [0x61, 0x6C, 0x73, 0x65]

end IndexFeed.Json
