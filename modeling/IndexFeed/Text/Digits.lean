/-!
# Digits

Numbers written in a base up to sixteen, with letters of either case as the digits beyond nine.
-/

namespace IndexFeed.Text

def digitValue? (c : Char) : Option Nat :=
  if c.isDigit then some (c.toNat - '0'.toNat)
  else if 'a' ≤ c ∧ c ≤ 'f' then some (c.toNat - 'a'.toNat + 10)
  else if 'A' ≤ c ∧ c ≤ 'F' then some (c.toNat - 'A'.toNat + 10)
  else none

/-- The number that digits of a base spell, read after `n`. -/
def numberFrom? (base n : Nat) : List Char → Option Nat
  | [] => some n
  | c :: rest =>
    (digitValue? c).bind fun d => if d < base then numberFrom? base (n * base + d) rest else none

/-- The number that digits of a base spell, at least one of them. -/
def number? (base : Nat) (cs : List Char) : Option Nat :=
  if cs.isEmpty then none else numberFrom? base 0 cs

/-- The number that the first `count` characters spell as hexadecimal digits. -/
def hexNumber? (count : Nat) (cs : List Char) : Option Nat :=
  if cs.length < count then none else number? 16 (cs.take count)

def charOf? (n : Nat) : Option Char :=
  if h : n.isValidChar then some (Char.ofNatAux n h) else none

end IndexFeed.Text
