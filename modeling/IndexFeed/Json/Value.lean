/-!
# JSON values

A value as a document writes it, members in order and repeats included, and its canonical form:
the members of every object sorted by name, the last of several members of one name kept.
-/

namespace IndexFeed.Json

/-- An integer that a document holds exactly: from `-2 ^ 63` to `2 ^ 64 - 1`. -/
structure WireInt where
  val : Int
  lower : -0x8000000000000000 ≤ val
  upper : val < 0x10000000000000000
  deriving DecidableEq

namespace WireInt

instance : Repr WireInt := ⟨fun n p => reprPrec n.val p⟩

/-- The integer, if it is in range. -/
def ofInt? (n : Int) : Option WireInt :=
  if h : -0x8000000000000000 ≤ n ∧ n < 0x10000000000000000 then some ⟨n, h.1, h.2⟩ else none

/-- A number below `2 ^ 64`. -/
def ofNat (n : Nat) (h : n < 0x10000000000000000) : WireInt := ⟨n, by omega, by omega⟩

instance : Inhabited WireInt := ⟨ofNat 0 (by decide)⟩

def ofUInt64 (n : UInt64) : WireInt := ofNat n.toNat n.toNat_lt
def ofUInt32 (n : UInt32) : WireInt := ofNat n.toNat (by have := n.toNat_lt; omega)
def ofUInt16 (n : UInt16) : WireInt := ofNat n.toNat (by have := n.toNat_lt; omega)
def ofUInt8 (n : UInt8) : WireInt := ofNat n.toNat (by have := n.toNat_lt; omega)

def ofInt64 (n : Int64) : WireInt :=
  ⟨n.toInt, by have := n.le_toInt; simpa using this, by have := n.toInt_lt; omega⟩

end WireInt

inductive Value where
  | null
  | bool (b : Bool)
  | int (n : WireInt)
  | float (x : Float)
  | text (s : String)
  | array (items : List Value)
  | object (members : List (String × Value))
  deriving Inhabited, BEq, Repr

abbrev Members := List (String × Value)

namespace Members

/-- Adds a member that stands before all of `ms` to the sorted members `ms`: one of its name that
is there already came later and stays. -/
def addOlder (name : String) (v : Value) : Members → Members
  | [] => [(name, v)]
  | (n, w) :: rest =>
    if name < n then (name, v) :: (n, w) :: rest
    else if name = n then (n, w) :: rest
    else (n, w) :: addOlder name v rest

/-- The value of the member called `name`. -/
def find? (ms : Members) (name : String) : Option Value := ms.lookup name

/-- The members other than those called `name`. -/
def erase (ms : Members) (name : String) : Members := ms.filter (·.1 ≠ name)

end Members

namespace Value

mutual

/-- The value with the members of every object sorted, the last of each name kept. -/
def canonical : Value → Value
  | .array items => .array (canonicalItems items)
  | .object members => .object (canonicalMembers members)
  | v => v

def canonicalItems : List Value → List Value
  | [] => []
  | v :: rest => v.canonical :: canonicalItems rest

def canonicalMembers : Members → Members
  | [] => []
  | (name, v) :: rest => Members.addOlder name v.canonical (canonicalMembers rest)

end

end Value

end IndexFeed.Json
