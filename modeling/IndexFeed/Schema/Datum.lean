import IndexFeed.Json.Value

/-!
# Data

What a document or a configuration holds, before anything is known of the form that is wanted.
-/

namespace IndexFeed.Schema

/-- A datum: a scalar, a sequence or a mapping with its entries in the order they came. -/
inductive Datum where
  | unit
  | flag (b : Bool)
  | unsigned (n : Nat)
  | signed (n : Int)
  | float (x : Float)
  | char (c : Char)
  | text (s : String)
  | sequence (items : List Datum)
  | mapping (entries : List (String × Datum))
  deriving Inhabited, Repr

namespace Datum

def ofInt (n : Int) : Datum := if n < 0 then .signed n else .unsigned n.toNat

mutual

/-- The datum that a JSON value holds. -/
def ofJson : Json.Value → Datum
  | .null => .unit
  | .bool b => .flag b
  | .int n => ofInt n.val
  | .float x => .float x
  | .text s => .text s
  | .array items => .sequence (ofJsonItems items)
  | .object members => .mapping (ofJsonMembers members)

def ofJsonItems : List Json.Value → List Datum
  | [] => []
  | v :: rest => ofJson v :: ofJsonItems rest

def ofJsonMembers : Json.Members → List (String × Datum)
  | [] => []
  | (name, v) :: rest => (name, ofJson v) :: ofJsonMembers rest

end

end Datum

end IndexFeed.Schema
