import IndexFeed.Decimal.Shortest

/-!
# Decimal styles

How a decimal is written: which exponents of the leading digit are written out in full, whether a
whole number keeps a point, and the scientific form of all others.
-/

namespace IndexFeed.Decimal

/-- The decisions of a written form of numbers. -/
structure Style where
  /-- The least exponent of the leading digit that is written out, if there is one. -/
  least : Option Int
  /-- The greatest exponent of the leading digit that is written out, if there is one. -/
  greatest : Option Int
  /-- Whether a whole number ends in `.0`. -/
  keepPoint : Bool

/-- Whether a number whose leading digit has exponent `e` is written out. -/
def Style.writesOut (s : Style) (e : Int) : Bool :=
  s.least.all (· ≤ e) && s.greatest.all (e ≤ ·)

def digits (n : Nat) : List Char := Nat.toDigits 10 n

/-- The digits `ds` written out, the first of them of exponent `e`. -/
def plain (keepPoint : Bool) (ds : List Char) (e : Int) : List Char :=
  if e < 0 then
    '0' :: '.' :: List.replicate (-e - 1).toNat '0' ++ ds
  else if (ds.length : Int) ≤ e + 1 then
    ds ++ List.replicate (e + 1 - ds.length).toNat '0' ++ if keepPoint then ['.', '0'] else []
  else
    ds.take (e + 1).toNat ++ '.' :: ds.drop (e + 1).toNat

/-- The digits `ds` in scientific form, with a sign in front of the exponent. -/
def scientific (ds : List Char) (e : Int) : List Char :=
  let mantissa := match ds with
    | [] => []
    | [d] => [d]
    | d :: rest => d :: '.' :: rest
  mantissa ++ 'e' :: (if e < 0 then '-' else '+') :: digits e.natAbs

def Style.write (s : Style) (d : Scaled) : List Char :=
  let ds := digits d.coefficient
  let e := if d.coefficient = 0 then 0 else d.exponent + ds.length - 1
  if s.writesOut e then plain s.keepPoint ds e else scientific ds e

def Style.writeFloat (s : Style) (x : Float) : List Char :=
  (if isNegative x then ['-'] else []) ++ s.write (shortest x)

/-- Always written out, a whole number without a point. -/
def Style.longhand : Style := ⟨none, none, false⟩

/-- Any float in longhand, with names for those that are not finite. -/
def longhand (x : Float) : String :=
  if x.isNaN then "NaN"
  else if x.isInf then (if isNegative x then "-inf" else "inf")
  else String.ofList (Style.longhand.writeFloat x)

end IndexFeed.Decimal
