/-!
# Shortest decimals

The shortest decimal that reads back as a given binary number. A finite float is taken apart into
`m · 2 ^ q`; the decimals that read back as it are those in an interval around it, whose ends
count when `m` is even. On the grid of one digit, then of two, and so on, the two neighbours of
the number are tried; the first grid with a hit wins, of two hits the nearer one, and of two
equally near the even one.
-/

namespace IndexFeed.Decimal

/-- The number `coefficient · 10 ^ exponent`. -/
structure Scaled where
  coefficient : Nat
  exponent : Int
  deriving DecidableEq, Repr

/-- A positive binary number `mantissa · 2 ^ exponent`, and whether the next smaller one lies only
half a step away. -/
structure Binary where
  mantissa : Nat
  exponent : Int
  narrow : Bool
  deriving DecidableEq, Repr

/-- The magnitude held by the bits of a float. -/
def Binary.ofBits (bits : UInt64) : Binary :=
  let fraction := bits.toNat % 0x10000000000000
  let power := bits.toNat / 0x10000000000000 % 0x800
  if power = 0 then ⟨fraction, -1074, false⟩
  else ⟨fraction + 0x10000000000000, Int.ofNat power - 1075, fraction == 0 && power != 1⟩

structure Interval where
  low : Nat
  value : Nat
  high : Nat
  denominator : Nat
  closed : Bool
  deriving DecidableEq, Repr

/-- The interval of a binary number, in quarters of its last place. -/
def Binary.interval (b : Binary) : Interval :=
  let scale := if b.exponent < 2 then 1 else Nat.pow 2 (b.exponent - 2).toNat
  { low := (4 * b.mantissa - if b.narrow then 1 else 2) * scale
    value := 4 * b.mantissa * scale
    high := (4 * b.mantissa + 2) * scale
    denominator := Nat.pow 2 (2 - b.exponent).toNat
    closed := b.mantissa % 2 == 0 }

namespace Interval

/-- The interval divided by `10 ^ t`, so that the grid of that step becomes the whole numbers. -/
def onGrid (i : Interval) (t : Int) : Interval :=
  let up := Nat.pow 10 (-t).toNat
  { i with
    low := i.low * up
    value := i.value * up
    high := i.high * up
    denominator := i.denominator * Nat.pow 10 t.toNat }

/-- Whether the whole number `n` lies in the interval. -/
def holds (i : Interval) (n : Nat) : Bool :=
  let x := n * i.denominator
  if i.closed then i.low ≤ x && x ≤ i.high else i.low < x && x < i.high

/-- The whole number next to the value that lies in the interval, the nearer if both do. -/
def neighbour? (i : Interval) : Option Nat :=
  let n := i.value / i.denominator
  let below := i.value - n * i.denominator
  let above := (n + 1) * i.denominator - i.value
  match i.holds n, i.holds (n + 1) with
  | true, true => some (if below < above || (below == above && n % 2 == 0) then n else n + 1)
  | true, false => some n
  | false, true => some (n + 1)
  | false, false => none

/-- The decimal exponent of the leading digit of the value. -/
def leading (i : Interval) : Int :=
  if i.denominator ≤ i.value then
    ((Nat.toDigits 10 (i.value / i.denominator)).length : Int) - 1
  else -((Nat.toDigits 10 ((i.denominator - 1) / i.value)).length : Int)

end Interval

/-- The same number without zeros at the end of its coefficient; `fuel` bounds their count. -/
def Scaled.stripZeros : Nat → Scaled → Scaled
  | 0, d => d
  | fuel + 1, d =>
    if d.coefficient ≠ 0 ∧ d.coefficient % 10 = 0 then
      stripZeros fuel ⟨d.coefficient / 10, d.exponent + 1⟩
    else d

/-- The most digits that a float ever needs. -/
def mostDigits : Nat := 17

/-- The shortest decimal that reads back as a binary number. -/
def Binary.shortest (b : Binary) : Scaled :=
  if b.mantissa = 0 then ⟨0, 0⟩
  else
    let i := b.interval
    let lead := i.leading
    let found := (List.range mostDigits).findSome? fun (k : Nat) =>
      ((i.onGrid (lead - Int.ofNat k)).neighbour?).map fun n => Scaled.mk n (lead - Int.ofNat k)
    (found.getD ⟨0, 0⟩).stripZeros mostDigits

/-- The shortest decimal of the magnitude of a finite float. -/
def shortest (x : Float) : Scaled := (Binary.ofBits x.toBits).shortest

def isNegative (x : Float) : Bool := 0x8000000000000000 ≤ x.toBits.toNat

end IndexFeed.Decimal
