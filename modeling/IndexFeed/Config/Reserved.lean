import IndexFeed.Config.Merge

/-!
# Reserved names

Two names have a meaning of their own in the mappings of a file, its top apart. An entry under the
one numbers its mapping and is left out; the number has to be one. A mapping with an entry under
the other stands for the datum of that entry.
-/

namespace IndexFeed.Config

open Schema (Datum)

namespace Reserved

/-- The name of the entry that numbers a mapping. -/
def number : String := "___figment_value_id"

/-- The name of the entry that a mapping stands for. -/
def value : String := "___figment_value_value"

/-- Whether a datum may number a mapping: a whole number of 64 bits without a sign. -/
def isNumber : Datum → Bool
  | .unsigned n => n < 0x10000000000000000
  | _ => false

/-- What a mapping stands for, given its entries in the order they are written. -/
def mapping? (written : List (String × Datum)) : Option Datum :=
  if written.all fun (name, d) => name ≠ number || isNumber d then
    match written.reverse.lookup value with
    | some d => some d
    | none => some (.mapping (Entries.ofWritten (written.filter (·.1 ≠ number))))
  else none

mutual

/-- What a datum stands for, given as it is written. -/
def datum? : Datum → Option Datum
  | .sequence items => (items? items).map .sequence
  | .mapping entries => (entries? entries).bind mapping?
  | d => some d

def items? : List Datum → Option (List Datum)
  | [] => some []
  | d :: rest => do return (← datum? d) :: (← items? rest)

def entries? : List (String × Datum) → Option (List (String × Datum))
  | [] => some []
  | (name, d) :: rest => do return (name, ← datum? d) :: (← entries? rest)

end

end Reserved

end IndexFeed.Config
