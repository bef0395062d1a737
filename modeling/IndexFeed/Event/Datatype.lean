/-!
# Datatypes

The flags of a document body: JSON, compressed, with extended attributes, in any combination.
Bits beyond these three are kept.
-/

namespace IndexFeed

/-- A set of flags. -/
structure Datatype where
  bits : UInt8
  deriving DecidableEq, Repr, Inhabited

namespace Datatype

def none : Datatype := ⟨0⟩

/-- The body is JSON. -/
def json : Datatype := ⟨1⟩

/-- The body is compressed. -/
def snappy : Datatype := ⟨2⟩

/-- The body has extended attributes. -/
def xattr : Datatype := ⟨4⟩

/-- Whether all flags of `e` are set in `d`. -/
def contains (d e : Datatype) : Bool := d.bits &&& e.bits == e.bits

def union (d e : Datatype) : Datatype := ⟨d.bits ||| e.bits⟩

instance : OrOp Datatype := ⟨union⟩

/-- The named flags that are set. -/
def flagNames (d : Datatype) : List String :=
  (if d.contains json then ["json"] else []) ++ (if d.contains snappy then ["snappy"] else []) ++
    if d.contains xattr then ["xattr"] else []

/-- The named flags, joined by bars, or `raw` for none of them. -/
def text (d : Datatype) : String :=
  if d.flagNames.isEmpty then "raw" else "|".intercalate d.flagNames

end Datatype

end IndexFeed
