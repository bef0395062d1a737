import IndexFeed.Decimal.Style
import IndexFeed.Json.Value
import IndexFeed.Text.Utf8

/-!
# Writing JSON

Values as compact text. Strings escape the quote, the backslash and the controls below the space;
floats have the shortest digits that read back, and `null` stands for those that are not finite.
-/

namespace IndexFeed.Json

open Text (Bytes)

/-! ### Strings -/

/-- The digit of a number below 16. -/
def hexDigit (n : Nat) : UInt8 := if n < 10 then UInt8.ofNat (0x30 + n) else UInt8.ofNat (0x57 + n)

/-- A byte of a string as it is written. -/
def escapeByte (b : UInt8) : Bytes :=
  if b = 0x22 then [0x5C, 0x22]
  else if b = 0x5C then [0x5C, 0x5C]
  else if b = 8 then [0x5C, 0x62]
  else if b = 9 then [0x5C, 0x74]
  else if b = 10 then [0x5C, 0x6E]
  else if b = 12 then [0x5C, 0x66]
  else if b = 13 then [0x5C, 0x72]
  else if b < 0x20 then
    [0x5C, 0x75, 0x30, 0x30, hexDigit (b.toNat / 16), hexDigit (b.toNat % 16)]
  else [b]

/-- A string, given as the bytes of its text. -/
def printBytes (bytes : Bytes) : Bytes := 0x22 :: bytes.flatMap escapeByte ++ [0x22]

def printText (s : String) : Bytes := printBytes (Text.encode s)

/-! ### Numbers -/

def ascii (cs : List Char) : Bytes := cs.map fun c => UInt8.ofNat c.toNat

def printNat (n : Nat) : Bytes := ascii (Nat.toDigits 10 n)

def printInt (n : Int) : Bytes := if n < 0 then 0x2D :: printNat n.natAbs else printNat n.natAbs

/-- Floats are written out when their leading digit has an exponent from -5 to 15, whole ones with
a point. -/
def floatStyle : Decimal.Style := ⟨some (-5), some 15, true⟩

def finiteText (x : Float) : List Char := floatStyle.writeFloat x

def printFloat (x : Float) : Bytes :=
  if x.isFinite then ascii (finiteText x) else ascii "null".toList

/-! ### Values -/

/-- What stands between brackets, with commas. -/
def commas : List Bytes → Bytes
  | [] => []
  | [b] => b
  | b :: rest => b ++ 0x2C :: commas rest

def printArray (items : List Bytes) : Bytes := 0x5B :: commas items ++ [0x5D]

def printMember (name : String) (value : Bytes) : Bytes := printText name ++ 0x3A :: value

def printObject (members : List Bytes) : Bytes := 0x7B :: commas members ++ [0x7D]

namespace Value

mutual

/-- A value as compact text. -/
def print : Value → Bytes
  | .null => ascii "null".toList
  | .bool true => ascii "true".toList
  | .bool false => ascii "false".toList
  | .int n => printInt n.val
  | .float x => printFloat x
  | .text s => printText s
  | .array items => printArray (printItems items)
  | .object members => printObject (printMembers members)

def printItems : List Value → List Bytes
  | [] => []
  | v :: rest => v.print :: printItems rest

def printMembers : Members → List Bytes
  | [] => []
  | (name, v) :: rest => printMember name v.print :: printMembers rest

end

end Value

end IndexFeed.Json
