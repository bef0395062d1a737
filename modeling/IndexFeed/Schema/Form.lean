import IndexFeed.Json.Value

/-!
# Forms

A form describes the values of a type as documents and configurations hold them: texts, flags,
words of a width, options, lists, choices by name, records with named fields. It is data; how it
is read from a text and from a datum is said elsewhere.
-/

namespace IndexFeed.Schema

inductive Width where
  | byte
  | half
  | word
  | long
  | size
  deriving DecidableEq, Repr

namespace Width

abbrev Word : Width → Type
  | byte => UInt8
  | half => UInt16
  | word => UInt32
  | long => UInt64
  | size => UInt64

/-- How many numbers there are. -/
def count : Width → Nat
  | byte => 0x100
  | half => 0x10000
  | word => 0x100000000
  | long => 0x10000000000000000
  | size => 0x10000000000000000

/-- What messages call a number of the width. -/
def name : Width → String
  | byte => "u8"
  | half => "u16"
  | word => "u32"
  | long => "u64"
  | size => "usize"

/-- The number `n`, its higher bits dropped. -/
def wrap : (w : Width) → Nat → w.Word
  | byte, n => UInt8.ofNat n
  | half, n => UInt16.ofNat n
  | word, n => UInt32.ofNat n
  | long, n => UInt64.ofNat n
  | size, n => UInt64.ofNat n

/-- The number `n`, if the width holds it. -/
def ofNat? (w : Width) (n : Nat) : Option w.Word := if n < w.count then some (w.wrap n) else none

end Width

/-- A value of each of the types. -/
def Tuple : List Type → Type
  | [] => Unit
  | t :: ts => t × Tuple ts

/-- A place for a value of each of the types. -/
def Slots : List Type → Type
  | [] => Unit
  | t :: ts => Option t × Slots ts

def Slots.empty : (ts : List Type) → Slots ts
  | [] => ()
  | _ :: ts => (none, empty ts)

mutual

/-- How the values of a type are held. -/
inductive Form : Type → Type 1 where
  /-- Any JSON value. -/
  | json : Form Json.Value
  | text : Form String
  | flag : Form Bool
  | word (w : Width) : Form w.Word
  /-- Null stands for nothing. -/
  | optional {α : Type} (form : Form α) : Form (Option α)
  | list {α : Type} (form : Form α) : Form (List α)
  /-- One of several names. -/
  | choice {α : Type} (name : String) (options : Options α) : Form α
  /-- Fields by name, or in order. -/
  | record {ts : List Type} {α : Type} (name : String) (fields : Fields ts) (make : Tuple ts → α) :
    Form α
  /-- Fields by name, and beside them the fields of another record. -/
  | overlay {ts : List Type} {α β : Type} (name : String) (fields : Fields ts) (others : Form β)
    (make : Tuple ts → β → α) : Form α

/-- The fields of a record, each with the value that stands for a missing one, if there is such. -/
inductive Fields : List Type → Type 1 where
  | nil : Fields []
  | cons {t : Type} {ts : List Type} (name : String) (form : Form t) (default? : Option t)
    (rest : Fields ts) : Fields (t :: ts)

/-- The names of a choice; some carry content. -/
inductive Options : Type → Type 1 where
  | nil {α : Type} : Options α
  | plain {α : Type} (name : String) (value : α) (rest : Options α) : Options α
  | carrying {α β : Type} (name : String) (form : Form β) (make : β → α) (rest : Options α) :
    Options α

end

namespace Options

def names {α : Type} : Options α → List String
  | nil => []
  | plain name _ rest => name :: rest.names
  | carrying name _ _ rest => name :: rest.names

end Options

namespace Fields

def count {ts : List Type} : Fields ts → Nat
  | nil => 0
  | cons _ _ _ rest => rest.count + 1

def has {ts : List Type} (name : String) : Fields ts → Bool
  | nil => false
  | cons field _ _ rest => field == name || rest.has name

/-- The values of the fields, defaults in the empty places, or the name of the first field that has
none. -/
def complete {ts : List Type} : Fields ts → Slots ts → Except String (Tuple ts)
  | nil, _ => .ok ()
  | cons name _ default? rest, (slot, slots) =>
    match slot <|> default? with
    | some v => (rest.complete slots).map fun vs => (v, vs)
    | none => .error name

end Fields

def elementsText (n : Nat) : String := toString n ++ if n = 1 then " element" else " elements"

/-- What messages call a record. -/
def recordText (name : String) : String := "struct " ++ name

/-- What messages call a record that is held as a sequence. -/
def recordElementsText {ts : List Type} (name : String) (fields : Fields ts) : String :=
  recordText name ++ " with " ++ elementsText fields.count

/-- What messages call the kinds of data that are wanted. -/
def textText : String := "a string"
def flagsText : String := "a boolean"
def listText : String := "a sequence"
def unitText : String := "unit"
def contentText : String := "newtype variant"

end IndexFeed.Schema
