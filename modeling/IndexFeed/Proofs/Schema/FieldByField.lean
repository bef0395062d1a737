import IndexFeed.Schema.FromDatum
import Mathlib.Data.List.Induction
import Mathlib.Data.List.Nodup

/-!
# Records field by field

A record whose names differ is read field by field: each from the entry of its name, or from the
item at its place, and where that is missing the default stands for it (`value?_record`). Fields
beside those of another record are read in the same way, and the other record from the entries that
these fields leave over, if every one of them can be set aside (`value?_overlay`).
-/

namespace IndexFeed.Schema

/-! ### Definitions -/

/-- The value of a form that a datum holds, if it holds one. -/
def Form.value? {α : Type} (r : Reading) (form : Form α) (d : Datum) : Option α :=
  (form.ofDatum r d).toOption

/-- The value of a field, read from where it stands if it is not missing. -/
def Form.valueOr? {α : Type} (r : Reading) (form : Form α) (default? : Option α) :
    Option Datum → Option α
  | some d => form.value? r d
  | none => default?

/-- The place of a field, empty if it is missing. -/
def Form.slot? {α : Type} (r : Reading) (form : Form α) : Option Datum → Option (Option α)
  | some d => (form.value? r d).map some
  | none => some none

/-- Where the fields of a record stand: under their names in a mapping, at their places in a
sequence. -/
def Datum.place : Datum → Nat → String → Option Datum
  | .mapping entries, _, name => entries.lookup name
  | .sequence items, i, _ => items[i]?
  | _, _, _ => none

/-- Whether a datum is a mapping, or a sequence without more items than the `n` fields of a record
are read from. -/
def Datum.holdsFields (r : Reading) (n : Nat) : Datum → Bool
  | .mapping _ => true
  | .sequence items => items.length ≤ n || (r.surplusText? n).isNone
  | _ => false

/-- A mapping has no name twice. -/
def Datum.HasDistinctNames : Datum → Prop
  | .mapping entries => (entries.map Prod.fst).Nodup
  | _ => True

mutual

/-- Whether every whole number in a datum has at most 64 bits. -/
def Datum.inWords : Datum → Bool
  | .unsigned n => n < 0x10000000000000000
  | .signed n => -0x8000000000000000 ≤ n
  | .sequence items => itemsInWords items
  | .mapping entries => entriesInWords entries
  | _ => true

def itemsInWords : List Datum → Bool
  | [] => true
  | d :: rest => d.inWords && itemsInWords rest

def entriesInWords : List (String × Datum) → Bool
  | [] => true
  | (_, d) :: rest => d.inWords && entriesInWords rest

end

def Tuple.cons {t : Type} {ts : List Type} (v : t) (vs : Tuple ts) : Tuple (t :: ts) := (v, vs)

def Slots.cons {t : Type} {ts : List Type} (slot : Option t) (slots : Slots ts) :
    Slots (t :: ts) := (slot, slots)

namespace Fields

def names : {ts : List Type} → Fields ts → List String
  | _, .nil => []
  | _, .cons name _ _ rest => name :: rest.names

/-- The values of the fields, each from where it stands, or its default if it is missing. -/
def values? (r : Reading) : {ts : List Type} → Fields ts → (Nat → String → Option Datum) →
    Option (Tuple ts)
  | _, .nil, _ => some ()
  | _, .cons name form default? rest, place =>
    (form.valueOr? r default? (place 0 name)).bind fun v =>
      (rest.values? r fun i => place (i + 1)).map (Tuple.cons v)

/-- The places of the fields, those of missing ones empty. -/
def slots? (r : Reading) : {ts : List Type} → Fields ts → (String → Option Datum) →
    Option (Slots ts)
  | _, .nil, _ => some ()
  | _, .cons name form _ rest, find =>
    (form.slot? r (find name)).bind fun slot =>
      (rest.slots? r find).map (Slots.cons slot)

end Fields

/-- The entries that name none of the fields. -/
def Fields.leftOver {ts : List Type} (fields : Fields ts) (entries : List (String × Datum)) :
    List (String × Datum) :=
  entries.filter fun e => !fields.has e.1

/-- Reads an entry that names a field, and sets any other one aside. -/
def Fields.entryBeside {ts : List Type} (r : Reading) (fields : Fields ts)
    (s : Slots ts × List (String × Datum)) (name : String) (d : Datum) :
    Fitting (Slots ts × List (String × Datum)) :=
  if fields.has name then do return (← fields.entryOf r name d s.1, s.2)
  else do
    r.under name (setAside r d)
    return (s.1, s.2 ++ [(name, d)])

/-! ### Results without their faults -/

section ToOption

variable {ε α β : Type}

@[simp]
theorem toOption_ok (a : α) : (.ok a : Except ε α).toOption = some a := rfl

@[simp]
theorem toOption_pure (a : α) : (pure a : Except ε α).toOption = some a := rfl

@[simp]
theorem toOption_misfit (fault : Fault) : (misfit fault : Fitting α).toOption = none := rfl

@[simp]
theorem toOption_misfitType (r : Reading) (d : Datum) (expected : String) :
    (misfitType r d expected : Fitting α).toOption = none := rfl

@[simp]
theorem toOption_bind (x : Except ε α) (f : α → Except ε β) :
    (x >>= f).toOption = x.toOption.bind fun a => (f a).toOption := by
  cases x <;> rfl

@[simp]
theorem toOption_map (x : Except ε α) (f : α → β) : (x.map f).toOption = x.toOption.map f := by
  cases x <;> rfl

@[simp]
theorem toOption_under (r : Reading) (name : String) (x : Fitting α) :
    (r.under name x).toOption = x.toOption := by
  cases x <;> cases r <;> rfl

theorem toOption_eq_some {x : Except ε α} {a : α} : x.toOption = some a ↔ x = .ok a := by
  cases x with
  | error e => exact ⟨nofun, nofun⟩
  | ok b => rw [toOption_ok, Option.some.injEq, Except.ok.injEq]

theorem toOption_entriesOf_cons {σ : Type} (entry : σ → String → Datum → Fitting σ) (start : σ)
    (e : String × Datum) (entries : List (String × Datum)) :
    (entriesOf entry start (e :: entries)).toOption =
      (entry start e.1 e.2).toOption.bind fun s => (entriesOf entry s entries).toOption := by
  unfold entriesOf
  rw [List.foldlM_cons, toOption_bind]

end ToOption

/-! ### Entries set aside -/

mutual

theorem toOption_setAside (r : Reading) : ∀ d : Datum,
    (setAside r d).toOption = if d.inWords then some () else none
  | .sequence items => by
    rw [setAside, Datum.inWords]
    exact toOption_setAsideItems r 0 items
  | .mapping entries => by
    rw [setAside, Datum.inWords]
    exact toOption_setAsideEntries r entries
  | .unsigned n => by
    by_cases h : n < 0x10000000000000000
    · simp [setAside, Datum.inWords, Datum.found, Found.isWide, h, Nat.not_le.2 h]
    · simp [setAside, Datum.inWords, Datum.found, Found.isWide, h, Nat.le_of_not_lt h]
  | .signed n => by
    by_cases h : n < -0x8000000000000000
    · simp [setAside, Datum.inWords, Datum.found, Found.isWide, h, Int.not_le.2 h]
    · simp [setAside, Datum.inWords, Datum.found, Found.isWide, h, Int.not_lt.1 h]
  | .unit | .flag _ | .float _ | .char _ | .text _ => rfl

theorem toOption_setAsideItems (r : Reading) : ∀ (index : Nat) (items : List Datum),
    (setAsideItems r index items).toOption = if itemsInWords items then some () else none
  | _, [] => rfl
  | index, d :: rest => by
    rw [setAsideItems, itemsInWords, toOption_bind, toOption_under, toOption_setAside r d]
    cases d.inWords with
    | false => rfl
    | true => exact toOption_setAsideItems r (index + 1) rest

theorem toOption_setAsideEntries (r : Reading) : ∀ entries : List (String × Datum),
    (setAsideEntries r entries).toOption = if entriesInWords entries then some () else none
  | [] => rfl
  | (name, d) :: rest => by
    rw [setAsideEntries, entriesInWords, toOption_bind, toOption_under, toOption_setAside r d]
    cases d.inWords with
    | false => rfl
    | true => exact toOption_setAsideEntries r rest

end

theorem entriesInWords_eq_all (entries : List (String × Datum)) :
    entriesInWords entries = entries.all (·.2.inWords) := by
  induction entries with
  | nil => rfl
  | cons e entries ih => rw [entriesInWords, ih, List.all_cons]

/-! ### Fields -/

namespace Fields

variable {r : Reading} {ts : List Type}

section EntryOf

variable {t : Type} {field name : String} {form : Form t} {default? : Option t} {rest : Fields ts}
  {slots : Slots ts}

theorem entryOf_vacant (h : field = name) (d : Datum) :
    (Fields.cons field form default? rest).entryOf r name d (.cons none slots) =
      (r.under name (form.ofDatum r d)).map fun v => .cons (some v) slots := by
  unfold Slots.cons
  rw [entryOf]
  refine (if_pos h).trans ?_
  cases form.ofDatum r d <;> cases r <;> rfl

theorem entryOf_taken (h : field = name) (d : Datum) (v : t) :
    (Fields.cons field form default? rest).entryOf r name d (.cons (some v) slots) =
      misfit (.duplicateField name) := by
  unfold Slots.cons
  rw [entryOf]
  exact if_pos h

theorem toOption_entryOf_vacant (h : field = name) (d : Datum) :
    ((Fields.cons field form default? rest).entryOf r name d (.cons none slots)).toOption =
      (form.value? r d).map fun v => .cons (some v) slots := by
  rw [entryOf_vacant h, toOption_map, toOption_under, Form.value?]

theorem entryOf_other (h : field ≠ name) (d : Datum) (slot : Option t) :
    (Fields.cons field form default? rest).entryOf r name d (.cons slot slots) =
      (rest.entryOf r name d slots).map (Slots.cons slot) := by
  unfold Slots.cons
  cases slot with
  | none =>
    rw [entryOf]
    refine (if_neg h).trans ?_
    cases rest.entryOf r name d slots <;> rfl
  | some v =>
    rw [entryOf]
    refine (if_neg h).trans ?_
    cases rest.entryOf r name d slots <;> rfl

end EntryOf

theorem entryOf_of_not_has {fields : Fields ts} {name : String} (h : fields.has name = false)
    (d : Datum) (slots : Slots ts) : fields.entryOf r name d slots = .ok slots := by
  induction ts with
  | nil => cases fields; rfl
  | cons t ts ih => cases fields with
    | cons field form default? rest =>
      obtain ⟨slot, slots⟩ := slots
      obtain ⟨hfield, hrest⟩ := Bool.or_eq_false_iff.1 h
      refine (entryOf_other (beq_eq_false_iff_ne.1 hfield) d slot).trans ?_
      rw [ih hrest]
      rfl

theorem has_iff {fields : Fields ts} {name : String} :
    fields.has name = true ↔ name ∈ fields.names := by
  induction ts with
  | nil => cases fields; exact iff_of_false nofun nofun
  | cons t ts ih => cases fields with
    | cons field form default? rest =>
      rw [has, names, Bool.or_eq_true, beq_iff_eq, ih, List.mem_cons, eq_comm]

theorem slots?_congr {fields : Fields ts} {find find' : String → Option Datum}
    (h : ∀ name ∈ fields.names, find name = find' name) :
    fields.slots? r find = fields.slots? r find' := by
  induction ts with
  | nil => cases fields; rfl
  | cons t ts ih => cases fields with
    | cons field form default? rest =>
      obtain ⟨hfield, hrest⟩ := List.forall_mem_cons.1 h
      rw [slots?, slots?, hfield, ih hrest]

theorem values?_congr {fields : Fields ts} {place place' : Nat → String → Option Datum}
    (h : ∀ i, ∀ name ∈ fields.names, place i name = place' i name) :
    fields.values? r place = fields.values? r place' := by
  induction ts generalizing place place' with
  | nil => cases fields; rfl
  | cons t ts ih => cases fields with
    | cons field form default? rest =>
      have hrest : (rest.values? r fun i => place (i + 1)) =
          rest.values? r fun i => place' (i + 1) :=
        ih fun i name hname => h (i + 1) name (List.mem_cons_of_mem field hname)
      rw [values?, values?, h 0 field List.mem_cons_self, hrest]

theorem values?_cons {t : Type} {name : String} {form : Form t} {default? : Option t}
    {rest : Fields ts} {place : Nat → String → Option Datum} {v : t} {vs : Tuple ts}
    (hv : form.valueOr? r default? (place 0 name) = some v)
    (hvs : (rest.values? r fun i => place (i + 1)) = some vs) :
    (Fields.cons name form default? rest).values? r place = some (.cons v vs) := by
  rw [values?, hv, hvs]
  rfl

theorem values?_cons_eq_some {t : Type} {name : String} {form : Form t} {default? : Option t}
    {rest : Fields ts} {place : Nat → String → Option Datum} {vs : Tuple (t :: ts)} :
    (Fields.cons name form default? rest).values? r place = some vs ↔
      form.valueOr? r default? (place 0 name) = some vs.1 ∧
        (rest.values? r fun i => place (i + 1)) = some vs.2 := by
  obtain ⟨v, vs⟩ := vs
  refine ⟨fun h => ?_, fun h => values?_cons h.1 h.2⟩
  obtain ⟨v', hv, h⟩ := Option.bind_eq_some_iff.1 h
  obtain ⟨vs', hvs, heq⟩ := Option.map_eq_some_iff.1 h
  cases heq
  exact ⟨hv, hvs⟩

theorem lookup_leftOver {fields : Fields ts} {name : String} (h : fields.has name = false)
    (entries : List (String × Datum)) :
    (fields.leftOver entries).lookup name = entries.lookup name := by
  induction entries with
  | nil => rfl
  | cons e entries ih =>
    obtain ⟨n, d⟩ := e
    unfold leftOver at ih ⊢
    by_cases hn : name = n
    · rw [hn] at h ⊢
      rw [List.filter_cons_of_pos (by simp [h]), List.lookup_cons_self, List.lookup_cons_self]
    · have hother : (name == n) = false := beq_eq_false_iff_ne.2 hn
      rw [List.filter_cons]
      split
      · rw [List.lookup_cons, List.lookup_cons, hother]
        exact ih
      · rw [List.lookup_cons, hother]
        exact ih

theorem slots?_cons_eq_some {t : Type} {name : String} {form : Form t} {default? : Option t}
    {rest : Fields ts} {find : String → Option Datum} {slot : Option t} {slots : Slots ts} :
    (Fields.cons name form default? rest).slots? r find = some (.cons slot slots) ↔
      form.slot? r (find name) = some slot ∧ rest.slots? r find = some slots := by
  constructor
  · intro h
    obtain ⟨slot', hslot, h⟩ := Option.bind_eq_some_iff.1 h
    obtain ⟨slots', hslots, heq⟩ := Option.map_eq_some_iff.1 h
    cases heq
    exact ⟨hslot, hslots⟩
  · rintro ⟨hslot, hslots⟩
    rw [slots?, hslot, hslots]
    rfl

theorem slots?_none (fields : Fields ts) : fields.slots? r (fun _ => none) = some (.empty ts) := by
  induction ts with
  | nil => cases fields; rfl
  | cons t ts ih => cases fields with
    | cons field form default? rest =>
      rw [slots?, ih]
      rfl

/-- An entry of a new name fills the place of its field, if there is one. -/
theorem slots?_bind_entryOf {fields : Fields ts} (hfields : fields.names.Nodup)
    {find : String → Option Datum} {name : String} (hnew : find name = none) (d : Datum) :
    ((fields.slots? r find).bind fun slots => (fields.entryOf r name d slots).toOption) =
      fields.slots? r fun n => if n = name then some d else find n := by
  induction ts with
  | nil => cases fields; rfl
  | cons t ts ih => cases fields with
    | cons field form default? rest =>
      obtain ⟨hfield, hrest⟩ := List.nodup_cons.1 hfields
      by_cases hname : field = name
      -- the entry fills this slot, and no other, as the names are distinct
      · have hsame : rest.slots? r (fun n => if n = name then some d else find n) =
            rest.slots? r find := by
          refine slots?_congr fun n hn => if_neg fun heq => hfield ?_
          rwa [hname, ← heq]
        rw [slots?, slots?, hsame, hname, hnew, if_pos rfl]
        cases rest.slots? r find with
        | none =>
          show none = ((form.value? r d).map some).bind fun _ => none
          cases form.value? r d <;> rfl
        | some slots =>
          refine (toOption_entryOf_vacant rfl d).trans ?_
          show _ = ((form.value? r d).map some).bind fun slot => some (Slots.cons slot slots)
          cases form.value? r d <;> rfl
      · rw [slots?, slots?, if_neg hname, ← ih hrest]
        cases form.slot? r (find field) with
        | none => rfl
        | some slot => cases rest.slots? r find with
          | none => rfl
          | some slots =>
            refine (congrArg Except.toOption (entryOf_other hname d slot)).trans ?_
            exact toOption_map _ _

theorem toOption_entriesOf {fields : Fields ts} (hfields : fields.names.Nodup)
    {entries : List (String × Datum)} (hentries : (entries.map Prod.fst).Nodup) :
    (entriesOf (fun slots n d => fields.entryOf r n d slots) (.empty ts) entries).toOption =
      fields.slots? r fun name => entries.lookup name := by
  -- from the last entry back: each entry meets the places that those before it have filled
  induction entries using List.reverseRecOn with
  | nil => exact (slots?_none fields).symm
  | append_singleton entries e ih =>
    obtain ⟨name, d⟩ := e
    rw [List.map_append, List.nodup_append] at hentries
    obtain ⟨hdistinct, -, hnew⟩ := hentries
    have hlookup : entries.lookup name = none := by
      refine List.lookup_eq_none_iff.2 fun e he => ?_
      have hne := hnew e.1 (List.mem_map_of_mem he) name (List.mem_singleton_self name)
      exact bne_iff_ne.2 hne.symm
    have hfind : (fun n => (entries ++ [(name, d)]).lookup n) =
        fun n => if n = name then some d else entries.lookup n := by
      funext n
      rw [List.lookup_append]
      by_cases hn : n = name
      · rw [if_pos hn, hn, hlookup, Option.none_or, List.lookup_cons_self]
      · rw [if_neg hn, List.lookup_cons, beq_eq_false_iff_ne.2 hn]
        exact Option.or_none
    rw [hfind, ← slots?_bind_entryOf hfields hlookup, ← ih hdistinct, entriesOf, entriesOf,
      List.foldlM_append, toOption_bind]
    simp only [List.foldlM_cons, List.foldlM_nil, bind_pure]

theorem valueOr?_eq_bind {t : Type} (form : Form t) (default? : Option t) (found : Option Datum) :
    form.valueOr? r default? found =
      (form.slot? r found).bind fun slot => slot <|> default? := by
  cases found with
  | none => rfl
  | some d =>
    show form.value? r d = ((form.value? r d).map some).bind fun slot => slot <|> default?
    cases form.value? r d <;> rfl

theorem toOption_complete_cons {t : Type} {name : String} {form : Form t} {default? : Option t}
    {rest : Fields ts} (slot : Option t) (slots : Slots ts) :
    ((Fields.cons name form default? rest).complete (.cons slot slots)).toOption =
      (slot <|> default?).bind fun v => (rest.complete slots).toOption.map (Tuple.cons v) := by
  unfold Slots.cons
  rw [complete]
  cases slot <|> default? with
  | none => rfl
  | some v => exact toOption_map _ _

theorem slots?_bind_complete (fields : Fields ts) (find : String → Option Datum) :
    ((fields.slots? r find).bind fun slots => (fields.complete slots).toOption) =
      fields.values? r fun _ => find := by
  induction ts with
  | nil => cases fields; rfl
  | cons t ts ih => cases fields with
    | cons field form default? rest =>
      rw [slots?, values?, valueOr?_eq_bind, ← ih rest]
      cases form.slot? r (find field) with
      | none => rfl
      | some slot => cases rest.slots? r find with
        | none =>
          -- the places fail before a missing default is noticed, and the values after it
          show none = (slot <|> default?).bind fun _ => none
          cases slot <|> default? <;> rfl
        | some slots => exact toOption_complete_cons slot slots

theorem toOption_cons_bind {t : Type} (v : t) (x : Fitting (Tuple ts × List Datum)) :
    (do let (vs, items) ← x; return (.cons v vs, items) :
      Fitting (Tuple (t :: ts) × List Datum)).toOption =
        x.toOption.map fun out => (Tuple.cons v out.1, out.2) := by
  cases x <;> rfl

/-- The values of the fields from items, and the items that are left. -/
theorem toOption_ofItems (fields : Fields ts) (expected : String) (index : Nat)
    (items : List Datum) :
    (fields.ofItems r expected index items).toOption =
      (fields.values? r fun i _ => items[i]?).map fun vs => (vs, items.drop fields.count) := by
  -- on the fields, with the items at hand shifted by one at each
  induction ts generalizing index items with
  | nil => cases fields; rfl
  | cons t ts ih => cases fields with
    | cons field form default? rest => cases items with
      | nil => cases default? with
        | none =>
          rw [ofItems]
          rfl
        | some v =>
          have hvalues : ((Fields.cons field form (some v) rest).values? r fun i _ => [][i]?) =
              (rest.values? r fun i _ => [][i]?).map (Tuple.cons v) := rfl
          rw [ofItems, hvalues, Option.map_map, List.drop_nil]
          refine (toOption_cons_bind v _).trans ?_
          rw [ih, Option.map_map, List.drop_nil]
          rfl
      | cons d items =>
        have hvalues : ((Fields.cons field form default? rest).values? r fun i _ =>
            (d :: items)[i]?) = (form.value? r d).bind fun v =>
              (rest.values? r fun i _ => items[i]?).map (Tuple.cons v) := rfl
        rw [ofItems, hvalues, Form.value?]
        cases form.ofDatum r d with
        | error e => cases r <;> rfl
        | ok v =>
          have hunder : r.under (toString index) (.ok v : Fitting t) = .ok v := by cases r <;> rfl
          rw [hunder]
          refine (toOption_cons_bind v _).trans ?_
          rw [ih, toOption_ok, Option.bind_some, Option.map_map, Option.map_map]
          rfl

end Fields

/-! ### Records -/

section Records

variable {r : Reading} {ts : List Type} {α β : Type} {fields : Fields ts}

theorem toOption_completed (slots : Slots ts) :
    (completed fields slots).toOption = (fields.complete slots).toOption := by
  unfold completed
  cases fields.complete slots <;> rfl

/-- **A record is read field by field.** -/
theorem value?_record (name : String) (make : Tuple ts → α) (hfields : fields.names.Nodup)
    {d : Datum} (hd : d.HasDistinctNames) :
    (Form.record name fields make).value? r d =
      if d.holdsFields r fields.count then (fields.values? r d.place).map make else none := by
  cases d with
  | mapping entries =>
    have hplace : (Datum.mapping entries).place = fun _ name => entries.lookup name := rfl
    rw [hplace, ← Fields.slots?_bind_complete, ← Fields.toOption_entriesOf hfields hd, Form.value?,
      Form.ofDatum, toOption_bind, Option.map_bind]
    refine Eq.trans ?_ (if_pos rfl).symm
    refine congrArg (Option.bind _) (funext fun slots => ?_)
    rw [toOption_bind, toOption_completed]
    exact (Option.map_eq_bind ..).symm
  | sequence items =>
    have hplace : (Datum.sequence items).place = fun i _ => items[i]? := rfl
    rw [hplace, Form.value?, Form.ofDatum, toOption_bind, Fields.toOption_ofItems, Option.bind_map]
    unfold Datum.holdsFields
    cases fields.values? r fun i _ => items[i]? with
    | none => exact (ite_self none).symm
    | some vs =>
      rw [Option.bind_some, Option.map_some]
      cases hsurplus : r.surplusText? fields.count with
      | none => simp
      | some expected =>
        by_cases hlength : items.length ≤ fields.count
        · simp [hlength]
        · simp [hlength]
  | _ => rfl

/-- In a mapping a record finds all its values, or none of it is read. -/
theorem value?_record_eq_some {name : String} {make : Tuple ts → α} (hfields : fields.names.Nodup)
    {entries : List (String × Datum)} (hentries : (entries.map Prod.fst).Nodup) {a : α} :
    (Form.record name fields make).value? r (.mapping entries) = some a ↔
      ∃ vs, fields.values? r (Datum.mapping entries).place = some vs ∧ make vs = a := by
  rw [value?_record (d := .mapping entries) name make hfields hentries]
  exact (Eq.congr_left (if_pos rfl)).trans Option.map_eq_some_iff

/-- A record is not concerned with the entries of other fields. -/
theorem value?_record_leftOver {us : List Type} {others : Fields us} (name : String)
    (make : Tuple ts → α) (hfields : fields.names.Nodup)
    (hothers : ∀ field ∈ fields.names, others.has field = false)
    {entries : List (String × Datum)} (hentries : (entries.map Prod.fst).Nodup) :
    (Form.record name fields make).value? r (.mapping (others.leftOver entries)) =
      (Form.record name fields make).value? r (.mapping entries) := by
  have hleft : ((others.leftOver entries).map Prod.fst).Nodup :=
    hentries.sublist (List.filter_sublist.map Prod.fst)
  have hvalues : fields.values? r (Datum.mapping (others.leftOver entries)).place =
      fields.values? r (Datum.mapping entries).place :=
    Fields.values?_congr fun _ field hfield => Fields.lookup_leftOver (hothers field hfield) entries
  rw [value?_record (d := .mapping (others.leftOver entries)) name make hfields hleft, hvalues,
    value?_record (d := .mapping entries) name make hfields hentries]
  rfl

theorem entryBeside_of_has {n : String} (h : fields.has n = true) (slots : Slots ts)
    (before : List (String × Datum)) (d : Datum) :
    fields.entryBeside r (slots, before) n d =
      (fields.entryOf r n d slots).map fun slots => (slots, before) := by
  unfold Fields.entryBeside
  rw [if_pos h]
  cases fields.entryOf r n d slots <;> rfl

theorem toOption_entryBeside_of_not_has {n : String} (h : fields.has n = false) (slots : Slots ts)
    (before : List (String × Datum)) (d : Datum) :
    (fields.entryBeside r (slots, before) n d).toOption =
      if d.inWords then some (slots, before ++ [(n, d)]) else none := by
  unfold Fields.entryBeside
  rw [if_neg (by simp [h]), toOption_bind, toOption_under, toOption_setAside]
  cases d.inWords <;> rfl

/-- The fields are filled as if there were no other entries, and the others are kept in order. -/
theorem toOption_entriesOf_beside (entries : List (String × Datum)) (slots : Slots ts)
    (before : List (String × Datum)) :
    (entriesOf (fields.entryBeside r) (slots, before) entries).toOption =
      if entriesInWords (fields.leftOver entries) then
        (entriesOf (fun slots n d => fields.entryOf r n d slots) slots entries).toOption.map
          fun slots => (slots, before ++ fields.leftOver entries)
      else none := by
  induction entries generalizing slots before with
  | nil => exact congrArg (fun rest => some (slots, rest)) (List.append_nil before).symm
  | cons e entries ih =>
    obtain ⟨n, d⟩ := e
    rw [toOption_entriesOf_cons, toOption_entriesOf_cons]
    unfold Fields.leftOver at ih ⊢
    cases hhas : fields.has n with
    | true =>
      rw [entryBeside_of_has hhas, toOption_map, List.filter_cons_of_neg (by simp [hhas])]
      cases (fields.entryOf r n d slots).toOption with
      | none => simp
      | some slots => exact ih slots before
    | false =>
      rw [toOption_entryBeside_of_not_has hhas, List.filter_cons_of_pos (by simp [hhas]),
        entriesInWords, Fields.entryOf_of_not_has hhas, toOption_ok, Option.bind_some]
      cases d.inWords with
      | false => rfl
      | true =>
        rw [if_pos rfl, Option.bind_some, ih, List.append_assoc]
        rfl

theorem overlay_ofDatum (name : String) (others : Form β) (make : Tuple ts → β → α)
    (entries : List (String × Datum)) :
    (Form.overlay name fields others make).ofDatum r (.mapping entries) = (do
      let read ← entriesOf (fields.entryBeside r) (.empty ts, []) entries
      let vs ← completed fields read.1
      return make vs (← others.ofDatum .leftOver (.mapping read.2))) := by
  rw [Form.ofDatum]
  rfl

/-- **Fields beside another record** are read like those of a record of their own, and the other
record from the entries that are left. -/
theorem value?_overlay (name : String) (others : Form β) (make : Tuple ts → β → α)
    (hfields : fields.names.Nodup) {entries : List (String × Datum)}
    (hentries : (entries.map Prod.fst).Nodup) :
    (Form.overlay name fields others make).value? r (.mapping entries) =
      if entriesInWords (fields.leftOver entries) then
        (fields.values? r (Datum.mapping entries).place).bind fun vs =>
          (others.value? .leftOver (.mapping (fields.leftOver entries))).map (make vs)
      else none := by
  have hplace : (Datum.mapping entries).place = fun _ name => entries.lookup name := rfl
  rw [hplace, ← Fields.slots?_bind_complete, ← Fields.toOption_entriesOf hfields hentries,
    Form.value?, overlay_ofDatum, toOption_bind, toOption_entriesOf_beside]
  split
  · rw [Option.bind_map, Option.bind_assoc]
    refine congrArg (Option.bind _) (funext fun slots => ?_)
    show (completed fields slots >>= fun vs => _).toOption = _
    rw [toOption_bind, toOption_completed]
    refine congrArg (Option.bind _) (funext fun vs => ?_)
    rw [toOption_bind, ← Form.value?]
    exact (Option.map_eq_bind ..).symm
  · rfl

end Records

end IndexFeed.Schema
