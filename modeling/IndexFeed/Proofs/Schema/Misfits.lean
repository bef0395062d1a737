import IndexFeed.Proofs.Schema.TwoReadings

/-!
# What misfits say

A misfit of the kind of a datum says what was found and what is wanted. What was found is some datum
that stands in the data at hand, it is not of the kind that is wanted, and where places are kept,
the path of the misfit leads to it. A misfit of a missing field names a field without a default
(`Form.sound`). Fields beside those of another record keep places only for themselves: a misfit of
the other record has the place of none (`overlay_sound`).
-/

namespace IndexFeed.Schema

/-! ### Definitions -/

/-- The datum `v` stands in another one, at the end of names of entries and numbers of items. -/
inductive Stands (v : Datum) : List String → Datum → Prop where
  | here : Stands v [] v
  | entry {entries : List (String × Datum)} {name : String} {d : Datum} {place : List String} :
    (name, d) ∈ entries → Stands v place d → Stands v (name :: place) (.mapping entries)
  | item {items : List Datum} {i : Nat} {d : Datum} {place : List String} :
    items[i]? = some d → Stands v place d → Stands v (toString i :: place) (.sequence items)

/-- The kinds of data that are wanted. -/
inductive Kind where
  | text
  | flag
  | word (w : Width)
  | list
  | unit
  | record (name : String)
  /-- An option of the choice `name`. -/
  | choice (name : String)
  /-- An option of any choice. -/
  | option
  /-- An option, by its name alone or in a mapping. -/
  | nameOrMapping
  /-- Whatever can be set aside. -/
  | anything
  deriving Repr

namespace Kind

def wording : Kind → String
  | text => textText
  | flag => flagsText
  | word w => w.name
  | list => listText
  | unit => unitText
  | record name => recordText name
  | choice name => "enum " ++ name
  | option => "enum"
  | nameOrMapping => "string or map"
  | anything => "any value"

def holds (r : Reading) : Kind → Datum → Bool
  | text, .text _ => true
  | text, .char _ => r = .configuration
  | flag, .flag _ => true
  | word w, .unsigned n => n < w.count
  | word w, .signed n => 0 ≤ n && n < w.count
  | list, .sequence _ => true
  | unit, .unit => true
  | unit, .mapping [] => r = .leftOver
  | record _, .mapping _ | record _, .sequence _ => true
  | choice _, .text _ | choice _, .mapping (_ :: _) => true
  | option, .text _ | option, .mapping (_ :: _) => true
  | nameOrMapping, .text _ | nameOrMapping, .mapping _ => true
  | anything, d => !d.found.isWide
  | _, _ => false

end Kind

/-- A datum is what was found, and it is not of the kind that is wanted. -/
structure Offends (r : Reading) (v : Datum) (found : Found) (expected : String) : Prop where
  found_eq : found = r.found v ∨ found = v.found
  exists_kind : ∃ kind : Kind, expected = kind.wording ∧ kind.holds r v = false

/-- The part of a place that misfits keep. -/
def Reading.shown : Reading → List String → List String
  | configuration, place => place
  | _, _ => []

/-- What a misfit says of a datum `d` that stands at `front`. A wrong type is that of a datum which
stands in `d`, at the place shown. A missing field has one of the names `N`. -/
structure Misfit.Sound (N : List String) (r : Reading) (front : List String) (d : Datum)
    (m : Misfit) : Prop where
  wrongType : ∀ found expected, m.fault = .wrongType found expected →
    ∃ place v, Stands v place d ∧ Offends r v found expected ∧ m.path = r.shown (front ++ place)
  missing : ∀ name, m.fault = .missingField name → name ∈ N

/-- All misfits that may come are sound. -/
def Sound {α : Type} (N : List String) (r : Reading) (front : List String) (d : Datum)
    (x : Fitting α) : Prop := ∀ m, x = .error m → m.Sound N r front d

mutual

/-- Whether a form is made of texts, flags, words, options, lists, plain choices and records. -/
def Form.isTyped {α : Type} : Form α → Bool
  | .json => false
  | .text => true
  | .flag => true
  | .word _ => true
  | .optional form => form.isTyped
  | .list form => form.isTyped
  | .choice _ options => options.arePlain
  | .record _ fields _ => fields.areTyped
  | .overlay .. => false

/-- Whether the forms of all fields are made so. -/
def Fields.areTyped {ts : List Type} : Fields ts → Bool
  | .nil => true
  | .cons _ form _ rest => form.isTyped && rest.areTyped

end

/-- The names of the fields without a default. -/
def Fields.required : {ts : List Type} → Fields ts → List String
  | _, .nil => []
  | _, .cons name _ default? rest =>
    if default?.isNone then name :: rest.required else rest.required

mutual

/-- The names of the fields without a default, at any depth. -/
def Form.required {α : Type} : Form α → List String
  | .json => []
  | .text => []
  | .flag => []
  | .word _ => []
  | .optional form => form.required
  | .list form => form.required
  | .choice _ options => options.required
  | .record _ fields _ => fields.required ++ fields.within
  | .overlay _ fields others _ => fields.required ++ fields.within ++ others.required

/-- The names of the fields without a default within the fields. -/
def Fields.within {ts : List Type} : Fields ts → List String
  | .nil => []
  | .cons _ form _ rest => form.required ++ rest.within

/-- The names of the fields without a default within the contents of options. -/
def Options.required {α : Type} : Options α → List String
  | .nil => []
  | .plain _ _ rest => rest.required
  | .carrying _ form _ rest => form.required ++ rest.required

end

/-! ### Results with a fault -/

theorem bind_eq_error {ε α β : Type} {x : Except ε α} {f : α → Except ε β} {e : ε} :
    (x >>= f) = .error e ↔ x = .error e ∨ ∃ a, x = .ok a ∧ f a = .error e := by
  cases x with
  | error e' =>
    show (.error e' : Except ε β) = .error e ↔ _
    simp
  | ok a =>
    show f a = .error e ↔ _
    simp

theorem exists_of_entriesOf {σ : Type} {entry : σ → String → Datum → Fitting σ} {start : σ}
    {entries : List (String × Datum)} {m : Misfit} (h : entriesOf entry start entries = .error m) :
    ∃ s, ∃ e ∈ entries, entry s e.1 e.2 = .error m := by
  unfold entriesOf at h
  induction entries generalizing start with
  | nil => cases h
  | cons e entries ih =>
    rcases bind_eq_error.1 h with h | ⟨s, -, h⟩
    · exact ⟨start, e, List.mem_cons_self, h⟩
    · obtain ⟨s', e', hmem, herror⟩ := ih h
      exact ⟨s', e', List.mem_cons_of_mem _ hmem, herror⟩

/-- All that can be wrong with fields that were read is that one of them is missing. -/
theorem exists_missing {ts : List Type} {fields : Fields ts} {slots : Slots ts} {m : Misfit}
    (h : completed fields slots = .error m) :
    ∃ name, fields.complete slots = .error name ∧ m = ⟨[], .missingField name⟩ := by
  unfold completed at h
  split at h
  · cases h
  · next name hname =>
    cases h
    exact ⟨name, hname, rfl⟩

theorem complete_cons_eq_error {ts : List Type} {t : Type} {field name : String} {form : Form t}
    {default? slot : Option t} {rest : Fields ts} {slots : Slots ts} :
    (Fields.cons field form default? rest).complete (.cons slot slots) = .error name ↔
      ((slot = none ∧ default? = none) ∧ field = name) ∨
        (slot <|> default?).isSome = true ∧ rest.complete slots = .error name := by
  unfold Slots.cons
  rw [Fields.complete]
  cases slot <;> cases default? <;> cases rest.complete slots <;> simp [Except.map]

theorem missing_of_complete {ts : List Type} {fields : Fields ts} {slots : Slots ts}
    {name : String} (h : fields.complete slots = .error name) :
    name ∈ fields.required ∧
      ∀ r find, fields.slots? r find = some slots → find name = none := by
  induction ts with
  | nil =>
    cases fields
    cases h
  | cons t ts ih => cases fields with
    | cons field form default? rest =>
      obtain ⟨slot, slots⟩ := slots
      rcases complete_cons_eq_error.1 h with ⟨⟨rfl, rfl⟩, rfl⟩ | ⟨-, h⟩
      · refine ⟨List.mem_cons_self, fun r find hslots => ?_⟩
        obtain ⟨hslot, -⟩ := Fields.slots?_cons_eq_some.1 hslots
        cases hfind : find field with
        | none => rfl
        | some d =>
          rw [hfind] at hslot
          obtain ⟨v, -, hv⟩ := Option.map_eq_some_iff.1 hslot
          cases hv
      · obtain ⟨hmem, hfind⟩ := ih h
        refine ⟨?_, fun r find hslots => hfind r find (Fields.slots?_cons_eq_some.1 hslots).2⟩
        rw [Fields.required]
        split
        · exact List.mem_cons_of_mem field hmem
        · exact hmem

/-! ### Sound results -/

section Sound

variable {α β : Type} {N : List String} {r : Reading} {front : List String} {d : Datum}

theorem sound_ok (a : α) : Sound N r front d (.ok a : Fitting α) := nofun

theorem sound_misfit {fault : Fault} (hwrong : ∀ found expected, fault ≠ .wrongType found expected)
    (hmissing : ∀ name, fault ≠ .missingField name) :
    Sound N r front d (misfit fault : Fitting α) := by
  rintro m ⟨⟩
  exact ⟨fun found expected hfault => absurd hfault (hwrong found expected),
    fun name hfault => absurd hfault (hmissing name)⟩

theorem sound_wrongType {found : Found} {expected : String} (h : Offends r d found expected) :
    Sound N r [] d (misfit (.wrongType found expected) : Fitting α) := by
  rintro m ⟨⟩
  refine ⟨?_, nofun⟩
  rintro found expected ⟨⟩
  refine ⟨[], d, .here, h, ?_⟩
  cases r <;> rfl

theorem sound_misfitType (kind : Kind) (h : kind.holds r d = false) :
    Sound N r [] d (misfitType r d kind.wording : Fitting α) :=
  sound_wrongType ⟨.inl rfl, kind, rfl, h⟩

theorem Sound.bind {x : Fitting α} {f : α → Fitting β} (hx : Sound N r front d x)
    (hf : ∀ a, x = .ok a → Sound N r front d (f a)) : Sound N r front d (x >>= f) := by
  intro m h
  rcases bind_eq_error.1 h with h | ⟨a, ha, h⟩
  · exact hx m h
  · exact hf a ha m h

theorem Sound.map {x : Fitting α} (hx : Sound N r front d x) (f : α → β) :
    Sound N r front d (x.map f) := by
  intro m h
  cases x with
  | error e =>
    cases h
    exact hx m rfl
  | ok a => cases h

/-- What is shown of a place begins with the name that was read under. -/
theorem Sound.under {x : Fitting α} (hx : Sound N r [] d x) (name : String) :
    Sound N r [name] d (r.under name x) := by
  intro m hm
  cases x with
  | ok a => cases r <;> cases hm
  | error e =>
    have hsame : m.fault = e.fault := by cases r <;> cases hm <;> rfl
    obtain ⟨hwrong, hmissing⟩ := hx e rfl
    refine ⟨fun found expected hfault => ?_, fun missing hfault => ?_⟩
    · obtain ⟨place, v, hstands, hoffends, hpath⟩ :=
        hwrong found expected (hsame.symm.trans hfault)
      refine ⟨place, v, hstands, hoffends, ?_⟩
      cases r <;> cases hm
      · exact hpath
      · exact hpath
      · exact congrArg (name :: ·) hpath
    · exact hmissing missing (hsame.symm.trans hfault)

theorem Sound.of_entry {entries : List (String × Datum)} {name : String} {x : Fitting α}
    (hx : Sound N r [name] d x) (hmem : (name, d) ∈ entries) :
    Sound N r [] (.mapping entries) x := by
  intro m hm
  obtain ⟨hwrong, hmissing⟩ := hx m hm
  refine ⟨fun found expected hfault => ?_, hmissing⟩
  obtain ⟨place, v, hstands, hoffends, hpath⟩ := hwrong found expected hfault
  exact ⟨name :: place, v, .entry hmem hstands, hoffends, hpath⟩

theorem Sound.of_item {items : List Datum} {i : Nat} {x : Fitting α}
    (hx : Sound N r [toString i] d x) (hitem : items[i]? = some d) :
    Sound N r [] (.sequence items) x := by
  intro m hm
  obtain ⟨hwrong, hmissing⟩ := hx m hm
  refine ⟨fun found expected hfault => ?_, hmissing⟩
  obtain ⟨place, v, hstands, hoffends, hpath⟩ := hwrong found expected hfault
  exact ⟨toString i :: place, v, .item hitem hstands, hoffends, hpath⟩

theorem getElem?_of_drop {items rest : List Datum} {i : Nat} (h : items.drop i = d :: rest) :
    items[i]? = some d ∧ items.drop (i + 1) = rest := by
  constructor
  · rw [← List.head?_drop, h]
    rfl
  · rw [← List.tail_drop, h]
    rfl

theorem sound_itemsOf {item : Datum → Fitting α} {items : List Datum}
    (hitem : ∀ d, Sound N r [] d (item d)) {rest : List Datum} {i : Nat}
    (h : items.drop i = rest) : Sound N r [] (.sequence items) (itemsOf r item i rest) := by
  induction rest generalizing i with
  | nil => exact sound_ok _
  | cons d rest ih =>
    obtain ⟨hfirst, hmore⟩ := getElem?_of_drop h
    exact (((hitem d).under _).of_item hfirst).bind fun _ _ => (ih hmore).bind fun _ _ => sound_ok _

theorem sound_entriesOf {σ : Type} {entry : σ → String → Datum → Fitting σ}
    {entries all : List (String × Datum)}
    (hentry : ∀ s, ∀ e ∈ entries, Sound N r [] (.mapping all) (entry s e.1 e.2)) (start : σ) :
    Sound N r [] (.mapping all) (entriesOf entry start entries) := by
  unfold entriesOf
  induction entries generalizing start with
  | nil => exact sound_ok _
  | cons e entries ih =>
    rw [List.foldlM_cons]
    exact (hentry start e List.mem_cons_self).bind fun s _ =>
      ih (fun s e he => hentry s e (List.mem_cons_of_mem _ he)) s

end Sound

/-! ### Scalars -/

section Scalars

variable {N : List String} (r : Reading)

theorem sound_textOf (d : Datum) : Sound N r [] d (textOf r d) := by
  cases d with
  | text s => exact sound_ok s
  | char c =>
    rw [textOf]
    split
    · exact sound_ok _
    · next h => exact sound_misfitType .text (by simp [Kind.holds, h])
  | _ => exact sound_misfitType .text rfl

theorem sound_flagOf (d : Datum) : Sound N r [] d (flagOf r d) := by
  cases d with
  | flag b => exact sound_ok b
  | _ => exact sound_misfitType .flag rfl

theorem Width.count_le (w : Width) : w.count ≤ 0x10000000000000000 := by
  cases w <;> decide

theorem sound_wordOfInt {w : Width} {d : Datum} (n : Int)
    (h : d.found.isWide = true → (Kind.word w).holds r d = false) :
    Sound N r [] d (wordOfInt w n d.found) := by
  unfold wordOfInt
  split
  · next hwide => exact sound_wrongType ⟨.inr rfl, .word w, rfl, h hwide⟩
  · split
    · exact sound_ok _
    · exact sound_misfit nofun nofun

theorem sound_wordOf (w : Width) (d : Datum) : Sound N r [] d (wordOf r w d) := by
  have hcount := w.count_le
  cases d with
  | unsigned n =>
    refine sound_wordOfInt r n fun hwide => ?_
    simp only [Datum.found, Found.isWide, decide_eq_true_eq] at hwide
    simp only [Kind.holds, decide_eq_false_iff_not]
    omega
  | signed n =>
    refine sound_wordOfInt r n fun hwide => ?_
    simp only [Datum.found, Found.isWide, decide_eq_true_eq] at hwide
    simp only [Kind.holds, Bool.and_eq_false_iff, decide_eq_false_iff_not]
    omega
  | _ => exact sound_misfitType (.word w) rfl

theorem sound_unitOf (d : Datum) : Sound N r [] d (unitOf r d) := by
  cases d with
  | unit => exact sound_ok ()
  | mapping entries => cases entries with
    | nil =>
      rw [unitOf]
      split
      · exact sound_ok ()
      · next h => exact sound_misfitType .unit (by simp [Kind.holds, h])
    | cons e entries => exact sound_misfitType .unit rfl
  | _ => exact sound_misfitType .unit rfl

/-- The name of an option is found, or what was found is none. -/
theorem sound_pickOf (name : String) (d : Datum) : Sound N r [] d (pickOf r name d) := by
  have henum : ∀ {d : Datum}, (Kind.choice name).holds r d = false →
      Sound N r [] d (misfit (.wrongType d.found ("enum " ++ name)) :
        Fitting (String × Option Datum)) :=
    fun h => sound_wrongType ⟨.inr rfl, .choice name, rfl, h⟩
  cases d with
  | text s => cases r <;> exact sound_ok _
  | mapping entries => cases r with
    | configuration => cases entries with
      | nil => exact sound_misfitType .option rfl
      | cons e entries => exact sound_ok _
    | _ => match entries with
      | [] => exact sound_misfit nofun nofun
      | [e] => exact sound_ok _
      | e :: e' :: entries => exact sound_misfit nofun nofun
  | _ => cases r with
    | configuration => exact henum rfl
    | _ => exact sound_misfitType .nameOrMapping rfl

/-- The content of an option is that of an entry under its name. -/
theorem mem_of_pickOf {name picked : String} {d content : Datum}
    (h : pickOf r name d = .ok (picked, some content)) :
    ∃ entries, d = .mapping entries ∧ (picked, content) ∈ entries := by
  cases d with
  | mapping entries => cases r with
    | configuration => cases entries with
      | nil => cases h
      | cons e entries =>
        cases h
        exact ⟨_, rfl, List.mem_cons_self⟩
    | _ => match entries, h with
      | [e], h =>
        cases h
        exact ⟨_, rfl, List.mem_cons_self⟩
  | text s => cases r <;> cases h
  | _ => cases r <;> cases h

end Scalars

/-! ### Data set aside -/

theorem sound_wide {N : List String} (r : Reading) (d : Datum) :
    Sound N r [] d (if d.found.isWide then misfitType r d "any value" else .ok ()) := by
  split
  · next h => exact sound_misfitType .anything (by simp [Kind.holds, h])
  · exact sound_ok ()

mutual

theorem sound_setAside {N : List String} (r : Reading) : ∀ d : Datum, Sound N r [] d (setAside r d)
  | .sequence items => by
    rw [setAside]
    exact sound_setAsideItems r 0 items rfl
  | .mapping entries => by
    rw [setAside]
    exact sound_setAsideEntries r entries fun _ he => he
  | .unsigned n => sound_wide r (.unsigned n)
  | .signed n => sound_wide r (.signed n)
  | .unit | .flag _ | .float _ | .char _ | .text _ => sound_ok ()

theorem sound_setAsideItems {N : List String} (r : Reading) {items : List Datum} :
    ∀ (i : Nat) (rest : List Datum), items.drop i = rest →
      Sound N r [] (.sequence items) (setAsideItems r i rest)
  | _, [], _ => sound_ok ()
  | i, d :: rest, h => by
    obtain ⟨hfirst, hmore⟩ := getElem?_of_drop h
    rw [setAsideItems]
    exact (((sound_setAside r d).under _).of_item hfirst).bind fun _ _ =>
      sound_setAsideItems r (i + 1) rest hmore

theorem sound_setAsideEntries {N : List String} (r : Reading) {all : List (String × Datum)} :
    ∀ entries : List (String × Datum), (∀ e ∈ entries, e ∈ all) →
      Sound N r [] (.mapping all) (setAsideEntries r entries)
  | [], _ => sound_ok ()
  | (name, d) :: rest, h => by
    rw [setAsideEntries]
    exact (((sound_setAside r d).under name).of_entry (h _ List.mem_cons_self)).bind fun _ _ =>
      sound_setAsideEntries r rest fun e he => h e (List.mem_cons_of_mem _ he)

end

/-! ### Forms -/

section Forms

variable {N : List String} {r : Reading}

theorem sound_completed {ts : List Type} {d : Datum} {fields : Fields ts}
    (h : fields.required ⊆ N) (slots : Slots ts) : Sound N r [] d (completed fields slots) := by
  intro m hm
  obtain ⟨name, hname, rfl⟩ := exists_missing hm
  refine ⟨nofun, ?_⟩
  rintro name ⟨⟩
  exact h (missing_of_complete hname).1

/-- An option without content, or with that of the entry under its name. -/
theorem Options.sound {α : Type} {name : String} {content : Option Datum}
    (names : List String) {d : Datum}
    (hcontent : ∀ c, content = some c → ∃ entries, d = .mapping entries ∧ (name, c) ∈ entries) :
    ∀ options : Options α, options.arePlain = true →
      Sound N r [] d (options.ofDatum r name content names)
  | .nil, _ => by
    have hunknown : ∀ {d}, Sound N r [] d (misfit (.unknownVariant name names) : Fitting α) :=
      sound_misfit nofun nofun
    rw [Options.ofDatum]
    split
    · next hsome =>
      -- the misfit stands under the name of the entry that holds the content
      obtain ⟨c, hc⟩ := Option.isSome_iff_exists.1 hsome
      obtain ⟨entries, rfl, hmem⟩ := hcontent c hc
      exact (hunknown.under name).of_entry hmem
    · exact hunknown
  | .plain n v rest, h => by
    have hrest := Options.sound names hcontent rest h
    cases content with
    | none =>
      rw [Options.ofDatum]
      split
      · exact sound_ok v
      · exact hrest
    | some c =>
      obtain ⟨entries, rfl, hmem⟩ := hcontent c rfl
      rw [Options.ofDatum]
      split
      · exact (((sound_unitOf r c).under name).of_entry hmem).bind fun _ _ => sound_ok v
      · exact hrest

mutual

/-- **What misfits say is so**, by induction on the form. -/
theorem Form.sound {α : Type} : ∀ (form : Form α), form.isTyped = true → form.required ⊆ N →
    ∀ d : Datum, Sound N r [] d (form.ofDatum r d)
  | .text, _, _, d => by
    rw [Form.ofDatum]
    exact sound_textOf r d
  | .flag, _, _, d => by
    rw [Form.ofDatum]
    exact sound_flagOf r d
  | .word w, _, _, d => by
    rw [Form.ofDatum]
    exact sound_wordOf r w d
  | .optional form, h, hN, d => by
    cases d with
    | unit => exact sound_ok none
    | _ =>
      simp only [Form.ofDatum]
      exact (form.sound h hN _).map some
  | .list form, h, hN, d => by
    cases d with
    | sequence items =>
      rw [Form.ofDatum]
      exact sound_itemsOf (form.sound h hN) rfl
    | _ =>
      simp only [Form.ofDatum]
      exact sound_misfitType .list rfl
  | .choice name options, h, _, d => by
    rw [Form.ofDatum]
    refine (sound_pickOf r name d).bind fun out hout => ?_
    obtain ⟨picked, content⟩ := out
    refine Options.sound _ (fun c hc => ?_) options h
    rw [hc] at hout
    exact mem_of_pickOf r hout
  | .record name fields make, h, hN, d => by
    -- the names asked for are those of the record itself and those of its fields
    obtain ⟨hrequired, hwithin⟩ := List.append_subset.1 hN
    cases d with
    | mapping entries =>
      rw [Form.ofDatum]
      have hentries : Sound N r [] (.mapping entries) (entriesOf
          (fun slots n d => fields.entryOf r n d slots) (Slots.empty _) entries) :=
        sound_entriesOf (fun slots e he => (fields.sound_entryOf h hwithin slots).of_entry he) _
      exact hentries.bind fun slots _ =>
        (sound_completed hrequired slots).bind fun _ _ => sound_ok _
    | sequence items =>
      rw [Form.ofDatum]
      refine (fields.sound_ofItems h hwithin _ 0 items rfl).bind fun out _ => ?_
      obtain ⟨vs, rest⟩ := out
      dsimp only
      split
      · split
        · exact sound_ok _
        · exact sound_misfit nofun nofun
      · exact sound_ok _
    | _ =>
      simp only [Form.ofDatum]
      exact sound_misfitType (.record name) rfl

theorem Fields.sound_entryOf {ts : List Type} {name : String} {d : Datum} :
    ∀ (fields : Fields ts), fields.areTyped = true → fields.within ⊆ N →
      ∀ slots : Slots ts, Sound N r [name] d (fields.entryOf r name d slots)
  | .nil, _, _, slots => sound_ok slots
  | .cons field form default? rest, h, hN, (slot, slots) => by
    obtain ⟨hform, hrest⟩ := Bool.and_eq_true_iff.1 h
    obtain ⟨hhere, hmore⟩ := List.append_subset.1 hN
    by_cases hfield : field = name
    · cases slot with
      | none =>
        have hvacant : (Fields.cons field form default? rest).entryOf r name d (none, slots) =
            (r.under name (form.ofDatum r d)).map fun v => .cons (some v) slots :=
          Fields.entryOf_vacant hfield d
        rw [hvacant]
        exact ((form.sound hform hhere d).under name).map _
      | some v =>
        have htaken : (Fields.cons field form default? rest).entryOf r name d (some v, slots) =
            misfit (.duplicateField name) := Fields.entryOf_taken hfield d v
        rw [htaken]
        exact sound_misfit nofun nofun
    · have hother : (Fields.cons field form default? rest).entryOf r name d (slot, slots) =
          (rest.entryOf r name d slots).map (Slots.cons slot) :=
        Fields.entryOf_other hfield d slot
      rw [hother]
      exact (rest.sound_entryOf hrest hmore slots).map _

theorem Fields.sound_ofItems {ts : List Type} {items : List Datum} :
    ∀ (fields : Fields ts), fields.areTyped = true → fields.within ⊆ N →
      ∀ (expected : String) (i : Nat) (rest : List Datum), items.drop i = rest →
        Sound N r [] (.sequence items) (fields.ofItems r expected i rest)
  | .nil, _, _, _, _, rest, _ => sound_ok _
  | .cons _ form default? more, h, hN, expected, i, rest, hrest => by
    obtain ⟨hform, hmore⟩ := Bool.and_eq_true_iff.1 h
    obtain ⟨hhere, hlater⟩ := List.append_subset.1 hN
    cases rest with
    | nil => cases default? with
      | none =>
        rw [Fields.ofItems]
        exact sound_misfit nofun nofun
      | some v =>
        have hrest' : items.drop (i + 1) = [] := by
          rw [← List.tail_drop, hrest]
          rfl
        rw [Fields.ofItems]
        exact (more.sound_ofItems hmore hlater expected (i + 1) [] hrest').bind
          fun _ _ => sound_ok _
    | cons d rest =>
      obtain ⟨hfirst, hleft⟩ := getElem?_of_drop hrest
      rw [Fields.ofItems]
      exact (((form.sound hform hhere d).under _).of_item hfirst).bind fun _ _ =>
        (more.sound_ofItems hmore hlater expected (i + 1) rest hleft).bind fun _ _ => sound_ok _

end

/-- What is wrong with a record that is a mapping is wrong within one of its fields, or one of them
is missing. -/
theorem record_misfit {ts : List Type} {α : Type} {name : String} {fields : Fields ts}
    {make : Tuple ts → α} (hfields : fields.areTyped = true) (hnames : fields.names.Nodup)
    {entries : List (String × Datum)} {m : Misfit}
    (h : (Form.record name fields make).ofDatum r (.mapping entries) = .error m) :
    (∃ e ∈ entries, fields.has e.1 = true ∧ m.Sound fields.within r [e.1] e.2) ∨
      ∃ missing ∈ fields.required, m = ⟨[], .missingField missing⟩ ∧
        ((entries.map Prod.fst).Nodup → entries.lookup missing = none) := by
  rw [Form.ofDatum] at h
  rcases bind_eq_error.1 h with h | ⟨slots, hread, h⟩
  · obtain ⟨slots, e, hmem, hentry⟩ := exists_of_entriesOf h
    refine .inl ⟨e, hmem, ?_, fields.sound_entryOf hfields (List.Subset.refl _) slots m hentry⟩
    by_contra hhas
    rw [Fields.entryOf_of_not_has (Bool.eq_false_iff.2 hhas)] at hentry
    cases hentry
  rcases bind_eq_error.1 h with h | ⟨vs, -, h⟩
  · obtain ⟨missing, hmissing, rfl⟩ := exists_missing h
    obtain ⟨hmem, hfind⟩ := missing_of_complete hmissing
    refine .inr ⟨missing, hmem, rfl, fun hentries => hfind r (entries.lookup ·) ?_⟩
    rw [← Fields.toOption_entriesOf hnames hentries, hread]
    rfl
  · cases h

/-- If a record that is a mapping lacks a field, there is none under the name of one of its own, or
the field stands within one of its own. -/
theorem record_missing {ts : List Type} {α : Type} {name : String} {fields : Fields ts}
    {make : Tuple ts → α} (hfields : fields.areTyped = true) (hnames : fields.names.Nodup)
    {entries : List (String × Datum)} (hentries : (entries.map Prod.fst).Nodup) {m : Misfit}
    (h : (Form.record name fields make).ofDatum r (.mapping entries) = .error m) {missing : String}
    (hfault : m.fault = .missingField missing) :
    (missing ∈ fields.required ∧ entries.lookup missing = none) ∨ missing ∈ fields.within := by
  rcases record_misfit hfields hnames h with ⟨e, -, -, hsound⟩ | ⟨missing, hmem, rfl, hnone⟩
  · exact .inr (hsound.missing missing hfault)
  · cases hfault
    exact .inl ⟨hmem, hnone hentries⟩

/-- What is wrong with fields beside those of another record is wrong within some entry, or one of
the fields is missing, or it is wrong with the other record, read from the entries that are left. -/
theorem overlay_misfit {ts : List Type} {α β : Type} {name : String} {fields : Fields ts}
    {others : Form β} {make : Tuple ts → β → α} (hfields : fields.areTyped = true)
    (hnames : fields.names.Nodup) {entries : List (String × Datum)} {m : Misfit}
    (h : (Form.overlay name fields others make).ofDatum r (.mapping entries) = .error m) :
    (∃ e ∈ entries, m.Sound fields.within r [e.1] e.2) ∨
      (∃ missing ∈ fields.required, m = ⟨[], .missingField missing⟩ ∧
        ((entries.map Prod.fst).Nodup → entries.lookup missing = none)) ∨
      others.ofDatum .leftOver (.mapping (fields.leftOver entries)) = .error m := by
  rw [overlay_ofDatum] at h
  rcases bind_eq_error.1 h with h | ⟨read, hread, h⟩
  · obtain ⟨s, e, hmem, hentry⟩ := exists_of_entriesOf h
    refine .inl ⟨e, hmem, ?_⟩
    have hsound : Sound fields.within r [e.1] e.2 (fields.entryBeside r s e.1 e.2) := by
      unfold Fields.entryBeside
      split
      · exact (fields.sound_entryOf hfields (List.Subset.refl _) s.1).bind fun _ _ => sound_ok _
      · exact ((sound_setAside r e.2).under e.1).bind fun _ _ => sound_ok _
    exact hsound m hentry
  -- the fields are filled, and the other entries kept
  have hbeside : (entriesOf (fields.entryBeside r) (.empty ts, []) entries).toOption = _ :=
    toOption_entriesOf_beside entries (.empty ts) []
  rw [hread] at hbeside
  split at hbeside
  · obtain ⟨slots, hslots, rfl⟩ := Option.map_eq_some_iff.1 hbeside.symm
    rcases bind_eq_error.1 h with h | ⟨vs, -, h⟩
    · obtain ⟨missing, hmissing, rfl⟩ := exists_missing h
      obtain ⟨hmem, hfind⟩ := missing_of_complete hmissing
      refine .inr (.inl ⟨missing, hmem, rfl, fun hentries =>
        hfind r (entries.lookup ·) ?_⟩)
      rw [← Fields.toOption_entriesOf hnames hentries, hslots]
    rcases bind_eq_error.1 h with h | ⟨b, -, h⟩
    · exact .inr (.inr h)
    · cases h
  · cases hbeside

end Forms

end IndexFeed.Schema
