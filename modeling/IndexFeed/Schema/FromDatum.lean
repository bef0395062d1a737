import IndexFeed.Schema.Fault
import IndexFeed.Schema.Form

/-!
# Reading data

A form read from a datum. The data of a configuration are read where they stand, and a misfit
names its place; the data of a document member that was set aside are read without one.
-/

namespace IndexFeed.Schema

/-- What the data are part of. -/
inductive Reading where
  /-- A JSON value. -/
  | document
  /-- The members of a record that its own fields left over. -/
  | leftOver
  /-- A merged configuration. -/
  | configuration
  deriving DecidableEq, Repr

/-- A fault and the names that lead to the datum at fault. -/
structure Misfit where
  path : List String
  fault : Fault
  deriving Repr

/-- The result of reading a datum. -/
abbrev Fitting (α : Type) := Except Misfit α

/-- A fault of the datum at hand. -/
def misfit {α : Type} (fault : Fault) : Fitting α := .error ⟨[], fault⟩

namespace Reading

/-- What a datum counts as. A character of a configuration is a text of its own. -/
def found : Reading → Datum → Found
  | configuration, .char c => .text (String.singleton c)
  | _, d => d.found

/-- What was read under `name`: the place of a misfit begins with it, where places are kept. -/
def under {α : Type} (r : Reading) (name : String) (x : Fitting α) : Fitting α :=
  match r, x with
  | configuration, .error e => .error ⟨name :: e.path, e.fault⟩
  | _, x => x

/-- What the items of a sequence are allowed to be more than, in words; a configuration does not
count them. -/
def surplusText? : Reading → Nat → Option String
  | document, _ => some "fewer elements in array"
  | leftOver, n => some (elementsText n ++ " in sequence")
  | configuration, _ => none

end Reading

def misfitType {α : Type} (r : Reading) (d : Datum) (expected : String) : Fitting α :=
  misfit (.wrongType (r.found d) expected)

/-! ### Scalars -/

/-- A text. A single character of a configuration is one. -/
def textOf (r : Reading) : Datum → Fitting String
  | .text s => .ok s
  | .char c => if r = .configuration then .ok (String.singleton c)
      else misfitType r (.char c) textText
  | d => misfitType r d textText

def flagOf (r : Reading) : Datum → Fitting Bool
  | .flag b => .ok b
  | d => misfitType r d flagsText

/-- A number that has to fit a width. -/
def wordOfInt (w : Width) (n : Int) (found : Found) : Fitting w.Word :=
  if found.isWide then misfit (.wrongType found w.name)
  else
    match if 0 ≤ n then w.ofNat? n.toNat else none with
    | some x => .ok x
    | none => misfit (.wrongValue found w.name)

def wordOf (r : Reading) (w : Width) (d : Datum) : Fitting w.Word :=
  match d with
  | .unsigned n => wordOfInt w n d.found
  | .signed n => wordOfInt w n d.found
  | _ => misfitType r d w.name

/-- The content of an option that carries none. -/
def unitOf (r : Reading) (d : Datum) : Fitting Unit :=
  match d with
  | .unit => .ok ()
  | .mapping [] => if r = .leftOver then .ok () else misfitType r d unitText
  | _ => misfitType r d unitText

mutual

def jsonOf (r : Reading) : Datum → Fitting Json.Value
  | .unit => .ok .null
  | .flag b => .ok (.bool b)
  | .unsigned n => wide n
  | .signed n => wide n
  | .float x => .ok (if x.isFinite then .float x else .null)
  | .char c => .ok (.text (String.singleton c))
  | .text s => .ok (.text s)
  | .sequence items => (jsonItems r 0 items).map .array
  | .mapping entries => (jsonMembers r entries).map .object
where
  wide (n : Int) : Fitting Json.Value :=
    match Json.WireInt.ofInt? n with
    | some n => .ok (.int n)
    | none => misfit .numberOutOfRange

/-- The JSON values of items, the first of them at `index`. -/
def jsonItems (r : Reading) (index : Nat) : List Datum → Fitting (List Json.Value)
  | [] => .ok []
  | d :: rest => do
    let v ← r.under (toString index) (jsonOf r d)
    return v :: (← jsonItems r (index + 1) rest)

def jsonMembers (r : Reading) : List (String × Datum) → Fitting Json.Members
  | [] => .ok []
  | (name, d) :: rest => do
    let v ← r.under name (jsonOf r d)
    return Json.Members.addOlder name v (← jsonMembers r rest)

end

mutual

/-- Entries that no field has asked for are set aside whole, which leaves out whole numbers beyond
64 bits. -/
def setAside (r : Reading) : Datum → Fitting Unit
  | .sequence items => setAsideItems r 0 items
  | .mapping entries => setAsideEntries r entries
  | d => if d.found.isWide then misfitType r d "any value" else .ok ()

/-- Items set aside, the first of them at `index`. -/
def setAsideItems (r : Reading) (index : Nat) : List Datum → Fitting Unit
  | [] => .ok ()
  | d :: rest => do
    r.under (toString index) (setAside r d)
    setAsideItems r (index + 1) rest

def setAsideEntries (r : Reading) : List (String × Datum) → Fitting Unit
  | [] => .ok ()
  | (name, d) :: rest => do
    r.under name (setAside r d)
    setAsideEntries r rest

end

/-! ### Choices -/

/-- How a datum names an option: by its name alone, or by its name with content. -/
def pickOf (r : Reading) (name : String) (d : Datum) : Fitting (String × Option Datum) :=
  match r, d with
  | _, .text s => .ok (s, none)
  | .configuration, .mapping ((s, content) :: _) => .ok (s, some content)
  | .configuration, .mapping [] => misfitType r d "enum"
  | .configuration, _ => misfit (.wrongType d.found ("enum " ++ name))
  | _, .mapping [(s, content)] => .ok (s, some content)
  | _, .mapping _ => misfit (.wrongValue .mapping "map with a single key")
  | _, _ => misfitType r d "string or map"

/-! ### Forms -/

/-- The items of a sequence, each under its index. -/
def itemsOf {α : Type} (r : Reading) (item : Datum → Fitting α) (index : Nat) :
    List Datum → Fitting (List α)
  | [] => .ok []
  | d :: rest => do
    let x ← r.under (toString index) (item d)
    return x :: (← itemsOf r item (index + 1) rest)

/-- The entries of a mapping taken one after another. -/
def entriesOf {σ : Type} (entry : σ → String → Datum → Fitting σ) (start : σ)
    (entries : List (String × Datum)) : Fitting σ :=
  entries.foldlM (fun s (name, d) => entry s name d) start

/-- The values of all fields, once their entries have been read. -/
def completed {ts : List Type} (fields : Fields ts) (slots : Slots ts) : Fitting (Tuple ts) :=
  match fields.complete slots with
  | .ok vs => .ok vs
  | .error name => misfit (.missingField name)

mutual

/-- The value of a form that a datum holds. -/
def Form.ofDatum {α : Type} (r : Reading) (d : Datum) : Form α → Fitting α
  | .json => jsonOf r d
  | .text => textOf r d
  | .flag => flagOf r d
  | .word w => wordOf r w d
  | .optional form =>
    match d with
    | .unit => .ok none
    | d => (form.ofDatum r d).map some
  | .list form =>
    match d with
    | .sequence items => itemsOf r (fun d => form.ofDatum r d) 0 items
    | d => misfitType r d listText
  | .choice name options => do
    let (picked, content) ← pickOf r name d
    options.ofDatum r picked content options.names
  | .record name fields make =>
    match d with
    | .mapping entries => do
      let slots ← entriesOf (fun s n d => fields.entryOf r n d s) (.empty _) entries
      return make (← completed fields slots)
    | .sequence items => do
      let (vs, rest) ← fields.ofItems r (recordElementsText name fields) 0 items
      match r.surplusText? fields.count with
      | some expected =>
        if rest.isEmpty then return make vs
        else misfit (.wrongLength items.length expected)
      | none => return make vs
    | d => misfitType r d (recordText name)
  | .overlay name fields others make =>
    match d with
    | .mapping entries => do
      let (slots, rest) ← entriesOf
        (fun (s, rest) n d =>
          if fields.has n then do return (← fields.entryOf r n d s, rest)
          else do
            r.under n (setAside r d)
            return (s, rest ++ [(n, d)]))
        (.empty _, []) entries
      let vs ← completed fields slots
      return make vs (← others.ofDatum .leftOver (.mapping rest))
    | d => misfitType r d (recordText name)

/-- Reads the entry `name`, if a field has that name, into its empty place. -/
def Fields.entryOf {ts : List Type} (r : Reading) (name : String) (d : Datum) :
    Fields ts → Slots ts → Fitting (Slots ts)
  | .nil, slots => .ok slots
  | .cons field form _ rest, (slot, slots) =>
    if field = name then
      match slot with
      | some _ => misfit (.duplicateField name)
      | none => do return (some (← r.under name (form.ofDatum r d)), slots)
    else do return (slot, ← rest.entryOf r name d slots)

/-- Reads the fields from the items of a sequence, the first of them at `index`; also gives the
items that are left. -/
def Fields.ofItems {ts : List Type} (r : Reading) (expected : String) (index : Nat)
    (items : List Datum) : Fields ts → Fitting (Tuple ts × List Datum)
  | .nil => .ok ((), items)
  | .cons _ form default? rest => do
    let (v, items) ← match items, default? with
      | d :: items, _ => do pure (← r.under (toString index) (form.ofDatum r d), items)
      | [], some v => pure (v, [])
      | [], none => misfit (.wrongLength index expected)
    let (vs, items) ← rest.ofItems r expected (index + 1) items
    return ((v, vs), items)

/-- The option called `name`, with its content if it came with any. -/
def Options.ofDatum {α : Type} (r : Reading) (name : String) (content : Option Datum)
    (names : List String) : Options α → Fitting α
  | .nil =>
    if content.isSome then r.under name (misfit (.unknownVariant name names))
    else misfit (.unknownVariant name names)
  | .plain n v rest =>
    if n = name then
      match content with
      | none => .ok v
      | some d => do
        r.under name (unitOf r d)
        return v
    else rest.ofDatum r name content names
  | .carrying n form make rest =>
    if n = name then
      match content with
      | none => misfit (.wrongType .bareVariant contentText)
      | some d => do return make (← r.under name (form.ofDatum r d))
    else rest.ofDatum r name content names

end

end IndexFeed.Schema
