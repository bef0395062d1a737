/-!
# Decimal literals

Numbers as people write them: a sign, digits with at most one point, an exponent. Reading one
gives the float nearest to it.
-/

namespace IndexFeed.Decimal

/-- The number that a run of digits spells, read after `acc`. -/
def valueOf (acc : Nat) (ds : List Char) : Nat :=
  ds.foldl (fun n c => n * 10 + (c.toNat - '0'.toNat)) acc

/-- A sign, if there is one, and what follows: `true` is a minus. -/
def splitSign : List Char → Bool × List Char
  | '-' :: rest => (true, rest)
  | '+' :: rest => (false, rest)
  | cs => (false, cs)

/-- A whole number with an optional sign, and nothing else. -/
def readInt? (cs : List Char) : Option Int :=
  let (minus, ds) := splitSign cs
  if ds.isEmpty || !ds.all Char.isDigit then none
  else if minus then some (-(valueOf 0 ds : Int)) else some (valueOf 0 ds)

/-- The float nearest to `coefficient · 10 ^ exponent`. Numbers with a leading digit beyond
`10 ^ 400` or below `10 ^ -400` are out of range whatever their digits. -/
def magnitude (coefficient : Nat) (exponent : Int) : Float :=
  let lead := exponent + (Nat.toDigits 10 coefficient).length
  if coefficient = 0 || lead < -400 then 0
  else if 400 < lead then 1.0 / 0.0
  else Float.ofScientific coefficient (exponent < 0) exponent.natAbs

/-- The float nearest to `± coefficient · 10 ^ exponent`. -/
def toFloat (minus : Bool) (coefficient : Nat) (exponent : Int) : Float :=
  if minus then -magnitude coefficient exponent else magnitude coefficient exponent

/-- The exponent that follows the digits of a literal: none, or `e` and a whole number. -/
def readExponent? : List Char → Option Int
  | [] => some 0
  | c :: rest => if c = 'e' || c = 'E' then readInt? rest else none

/-- A finite literal: sign, digits with at most one point and at least one digit, exponent. -/
def readFinite? (cs : List Char) : Option Float :=
  let (minus, rest) := splitSign cs
  let whole := rest.takeWhile Char.isDigit
  let rest := rest.dropWhile Char.isDigit
  let (fraction, rest) := match rest with
    | '.' :: tail => (tail.takeWhile Char.isDigit, tail.dropWhile Char.isDigit)
    | _ => ([], rest)
  if whole.isEmpty && fraction.isEmpty then none
  else
    (readExponent? rest).map fun e =>
      toFloat minus (valueOf (valueOf 0 whole) fraction) (e - fraction.length)

/-- A literal, or one of the names `inf`, `infinity` and `nan` in any letter case. -/
def readFloat? (cs : List Char) : Option Float :=
  let (minus, rest) := splitSign cs
  let name := rest.map Char.toLower
  if name = "inf".toList || name = "infinity".toList then
    some (if minus then -(1.0 / 0.0) else 1.0 / 0.0)
  else if name = "nan".toList then some (0.0 / 0.0)
  else readFinite? cs

end IndexFeed.Decimal
