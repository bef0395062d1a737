import IndexFeed.Proofs.Schema.FieldByField

/-!
# A datum where it stands and set aside

The entries that the fields of a record leave over are read by other rules than a configuration
where it stands. Each reading bars some data that the other allows, and of those that neither bars
both make the same (`Alike`). Where it stands, an option may not come with an empty mapping
(`readsAlike_choice`). Set aside, a character is no text (`readsAlike_text`), a mapping of several
options names none, and a sequence may not have more items than there are fields
(`readsAlike_record`).
-/

namespace IndexFeed.Schema

/-! ### Definitions -/

/-- Two readings of the same datum, one where it stands and one set aside: neither makes anything of
what is barred from it, and otherwise they agree. -/
structure Alike {α : Type} (barredHere barredAside : Bool) (here aside : Option α) : Prop where
  here_none : barredHere = true → here = none
  aside_none : barredAside = true → aside = none
  agree : barredHere = false → barredAside = false → here = aside

/-- The readings of a form are alike. -/
def Form.ReadsAlike {α : Type} (form : Form α) (d : Datum) (barredHere barredAside : Bool) : Prop :=
  Alike barredHere barredAside (form.value? .configuration d) (form.value? .leftOver d)

namespace Datum

def isChar : Datum → Bool
  | .char _ => true
  | _ => false

def isEmptyMapping : Datum → Bool
  | .mapping [] => true
  | _ => false

/-- Whether a datum names a single option, with an empty mapping as its content. -/
def hasEmptyContent : Datum → Bool
  | .mapping [(_, content)] => content.isEmptyMapping
  | _ => false

/-- Whether a datum names several options. -/
def hasManyOptions : Datum → Bool
  | .mapping (_ :: _ :: _) => true
  | _ => false

/-- Whether a datum is a sequence of more than `n` items. -/
def hasMoreItems (n : Nat) : Datum → Bool
  | .sequence items => n < items.length
  | _ => false

end Datum

/-- Whether no option carries content. -/
def Options.arePlain {α : Type} : Options α → Bool
  | .nil => true
  | .plain _ _ rest => rest.arePlain
  | .carrying .. => false

/-! ### Composition -/

namespace Alike

variable {α β : Type} {p p' q q' : Bool} {x y : Option α}

theorem of_eq (h : x = y) : Alike false false x y := ⟨nofun, nofun, fun _ _ => h⟩

theorem refl (x : Option α) : Alike false false x x := of_eq rfl

/-- What is barred from the reading aside is no matter to the other one. -/
theorem of_aside_none (h : y = none) : Alike false true x y := ⟨nofun, fun _ => h, nofun⟩

theorem map (h : Alike p q x y) (f : α → β) : Alike p q (x.map f) (y.map f) := by
  refine ⟨fun hp => ?_, fun hq => ?_, fun hp hq => ?_⟩
  · rw [h.here_none hp]
    rfl
  · rw [h.aside_none hq]
    rfl
  · rw [h.agree hp hq]

theorem bind {f g : α → Option β} (h : Alike p q x y) (hf : ∀ a, Alike p' q' (f a) (g a)) :
    Alike (p || p') (q || q') (x.bind f) (y.bind g) := by
  refine ⟨fun hp => ?_, fun hq => ?_, fun hp hq => ?_⟩
  · rcases Bool.or_eq_true_iff.1 hp with hp | hp
    · rw [h.here_none hp]
      rfl
    · simp [(hf _).here_none hp]
  · rcases Bool.or_eq_true_iff.1 hq with hq | hq
    · rw [h.aside_none hq]
      rfl
    · simp [(hf _).aside_none hq]
  · obtain ⟨hp, hp'⟩ := Bool.or_eq_false_iff.1 hp
    obtain ⟨hq, hq'⟩ := Bool.or_eq_false_iff.1 hq
    rw [h.agree hp hq]
    exact congrArg (Option.bind y) (funext fun a => (hf a).agree hp' hq')

end Alike

/-! ### Forms -/

section Forms

variable {α : Type}

theorem readsAlike_text (d : Datum) : Form.text.ReadsAlike d false d.isChar := by
  cases d with
  | char c => exact Alike.of_aside_none rfl
  | _ => exact Alike.refl _

theorem readsAlike_flag (d : Datum) : Form.flag.ReadsAlike d false false := by
  cases d <;> exact Alike.refl _

theorem readsAlike_word (w : Width) (d : Datum) : (Form.word w).ReadsAlike d false false := by
  cases d <;> exact Alike.refl _

theorem ofDatum_bareOption (r r' : Reading) (name : String) (names : List String) :
    ∀ options : Options α, options.ofDatum r name none names = options.ofDatum r' name none names
  | .nil => by
    rw [Options.ofDatum, Options.ofDatum]
    rfl
  | .plain n v rest => by
    rw [Options.ofDatum, Options.ofDatum, ofDatum_bareOption r r' name names rest]
  | .carrying n form make rest => by
    rw [Options.ofDatum, Options.ofDatum, ofDatum_bareOption r r' name names rest]

theorem alike_unitOf (d : Datum) : Alike d.isEmptyMapping false
    (unitOf .configuration d).toOption (unitOf .leftOver d).toOption := by
  cases d with
  | mapping entries => cases entries with
    | nil => exact ⟨fun _ => rfl, nofun, nofun⟩
    | cons e entries => exact Alike.refl _
  | _ => exact Alike.refl _

/-- The content of an option that carries none has to be empty, to either reading in its way. -/
theorem alike_plainOption (name : String) (content : Datum) (names : List String) :
    ∀ options : Options α, options.arePlain = true → Alike content.isEmptyMapping false
      (options.ofDatum .configuration name (some content) names).toOption
      (options.ofDatum .leftOver name (some content) names).toOption
  | .nil, _ => by
    rw [Options.ofDatum, Options.ofDatum]
    exact ⟨fun _ => rfl, nofun, fun _ _ => rfl⟩
  | .plain n v rest, h => by
    rw [Options.ofDatum, Options.ofDatum]
    by_cases hn : n = name
    · have hunit := (alike_unitOf content).map fun _ => v
      rw [if_pos hn, if_pos hn, toOption_bind, toOption_bind, toOption_under, toOption_under]
      simpa only [Option.map_eq_bind, toOption_pure, Function.comp_def] using hunit
    · rw [if_neg hn, if_neg hn]
      exact alike_plainOption name content names rest h
  | .carrying .., h => by cases h

theorem readsAlike_choice (name : String) {options : Options α} (h : options.arePlain = true)
    (d : Datum) : (Form.choice name options).ReadsAlike d d.hasEmptyContent d.hasManyOptions := by
  unfold Form.ReadsAlike Form.value?
  rw [Form.ofDatum, Form.ofDatum, toOption_bind, toOption_bind]
  cases d with
  | text s => exact Alike.of_eq (congrArg Except.toOption (ofDatum_bareOption _ _ s _ options))
  | mapping entries => cases entries with
    | nil => exact Alike.refl _
    | cons e rest => cases rest with
      | nil => exact alike_plainOption e.1 e.2 options.names options h
      | cons e' rest => exact Alike.of_aside_none rfl
  | _ => exact Alike.refl _

end Forms

/-! ### Records -/

section Records

variable {t : Type} {ts : List Type} {p p' q q' : Bool}

theorem Form.alike_valueOr? {form : Form t} {barredHere barredAside : Datum → Bool}
    (h : ∀ d, form.ReadsAlike d (barredHere d) (barredAside d)) (default? : Option t)
    (found : Option Datum) : Alike (found.any barredHere) (found.any barredAside)
      (form.valueOr? .configuration default? found) (form.valueOr? .leftOver default? found) := by
  cases found with
  | none => exact Alike.refl _
  | some d => exact h d

theorem Fields.alike_nil (place : Nat → String → Option Datum) :
    Alike false false (Fields.nil.values? .configuration place)
      (Fields.nil.values? .leftOver place) := Alike.refl _

theorem Fields.alike_cons {name : String} {form : Form t} {default? : Option t} {rest : Fields ts}
    {place : Nat → String → Option Datum}
    (hfield : Alike p q (form.valueOr? .configuration default? (place 0 name))
      (form.valueOr? .leftOver default? (place 0 name)))
    (hrest : Alike p' q' (rest.values? .configuration fun i => place (i + 1))
      (rest.values? .leftOver fun i => place (i + 1))) :
    Alike (p || p') (q || q') ((Fields.cons name form default? rest).values? .configuration place)
      ((Fields.cons name form default? rest).values? .leftOver place) :=
  hfield.bind fun v => hrest.map (Tuple.cons v)

theorem readsAlike_record {α : Type} (name : String) {fields : Fields ts} (make : Tuple ts → α)
    (hfields : fields.names.Nodup) {d : Datum} (hd : d.HasDistinctNames)
    (h : Alike p q (fields.values? .configuration d.place) (fields.values? .leftOver d.place)) :
    (Form.record name fields make).ReadsAlike d p (q || d.hasMoreItems fields.count) := by
  unfold Form.ReadsAlike
  rw [value?_record name make hfields hd, value?_record name make hfields hd]
  have hmake := h.map make
  cases d with
  | mapping entries =>
    have hfew : (Datum.mapping entries).hasMoreItems fields.count = false := rfl
    rw [hfew, Bool.or_false]
    exact hmake
  | sequence items =>
    have hhere : (Datum.sequence items).holdsFields .configuration fields.count = true :=
      Bool.or_true _
    have haside : (Datum.sequence items).holdsFields .leftOver fields.count =
        !(Datum.sequence items).hasMoreItems fields.count := by
      unfold Datum.holdsFields Datum.hasMoreItems
      rw [← decide_not, decide_eq_decide.2 Nat.not_lt]
      exact Bool.or_false _
    rw [if_pos hhere, haside]
    cases (Datum.sequence items).hasMoreItems fields.count with
    | true =>
      rw [Bool.or_true]
      exact ⟨hmake.here_none, fun _ => rfl, nofun⟩
    | false =>
      rw [Bool.or_false]
      exact hmake
  | _ => exact ⟨fun _ => rfl, fun _ => rfl, fun _ _ => rfl⟩

end Records

end IndexFeed.Schema
