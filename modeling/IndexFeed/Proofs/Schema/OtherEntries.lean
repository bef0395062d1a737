import IndexFeed.Proofs.Schema.Misfits

/-!
# Entries that name no field

An entry under a name that no field of a record has makes no difference to the record
(`record_without`). Beside another record it has to be set aside, and it makes none if that succeeds
(`overlay_without`).
-/

namespace IndexFeed.Schema

def without (name : String) (entries : List (String × Datum)) : List (String × Datum) :=
  entries.filter (·.1 ≠ name)

section Without

variable {r : Reading} {ts : List Type} {α β : Type} {fields : Fields ts} {name : String}

theorem without_cons_self (name : String) (d : Datum) (entries : List (String × Datum)) :
    without name ((name, d) :: entries) = without name entries :=
  List.filter_cons_of_neg (by simp)

theorem without_cons_of_ne {n : String} (h : n ≠ name) (d : Datum)
    (entries : List (String × Datum)) :
    without name ((n, d) :: entries) = (n, d) :: without name entries :=
  List.filter_cons_of_pos (by simpa using h)

theorem without_append (name : String) (entries more : List (String × Datum)) :
    without name (entries ++ more) = without name entries ++ without name more :=
  List.filter_append ..

theorem entriesOf_cons {σ : Type} (entry : σ → String → Datum → Fitting σ) (start : σ)
    (e : String × Datum) (entries : List (String × Datum)) :
    entriesOf entry start (e :: entries) =
      entry start e.1 e.2 >>= fun s => entriesOf entry s entries := rfl

/-- **A record is not concerned with names that are none of its fields'.** -/
theorem record_without (rname : String) (make : Tuple ts → α) (h : fields.has name = false)
    (entries : List (String × Datum)) :
    (Form.record rname fields make).ofDatum r (.mapping (without name entries)) =
      (Form.record rname fields make).ofDatum r (.mapping entries) := by
  have hfold : ∀ slots : Slots ts,
      entriesOf (fun s n d => fields.entryOf r n d s) slots (without name entries) =
        entriesOf (fun s n d => fields.entryOf r n d s) slots entries := by
    induction entries with
    | nil => exact fun _ => rfl
    | cons e entries ih =>
      intro slots
      obtain ⟨n, d⟩ := e
      by_cases hn : n = name
      · subst hn
        rw [without_cons_self, entriesOf_cons, Fields.entryOf_of_not_has h, ih]
        rfl
      · rw [without_cons_of_ne hn, entriesOf_cons, entriesOf_cons]
        exact congrArg (_ >>= ·) (funext ih)
  rw [Form.ofDatum, Form.ofDatum, hfold]

theorem setAside_of_inWords {d : Datum} (h : d.inWords = true) : setAside r d = .ok () := by
  rw [← toOption_eq_some, toOption_setAside, if_pos h]

theorem setAside_not_missing {m : Misfit} {d : Datum} {n missing : String}
    (h : r.under n (setAside r d) = .error m) : m.fault ≠ .missingField missing := fun hfault =>
  absurd (((sound_setAside (N := []) r d).under n m h).missing missing hfault) List.not_mem_nil

theorem entryBeside_of_not_has {n : String} (hhas : fields.has n = false) (slots : Slots ts)
    (before : List (String × Datum)) (d : Datum) :
    fields.entryBeside r (slots, before) n d =
      (r.under n (setAside r d)).map fun _ => (slots, before ++ [(n, d)]) := by
  unfold Fields.entryBeside
  rw [if_neg (by simp [hhas])]
  cases r.under n (setAside r d) <;> rfl

theorem entryBeside_without {n : String} (hn : n ≠ name) (slots : Slots ts)
    (before : List (String × Datum)) (d : Datum) :
    fields.entryBeside r (slots, without name before) n d =
      (fields.entryBeside r (slots, before) n d).map fun s => (s.1, without name s.2) := by
  cases hhas : fields.has n with
  | true =>
    rw [entryBeside_of_has hhas, entryBeside_of_has hhas]
    cases fields.entryOf r n d slots <;> rfl
  | false =>
    have hkept : without name (before ++ [(n, d)]) = without name before ++ [(n, d)] := by
      rw [without_append, without_cons_of_ne hn]
      rfl
    rw [entryBeside_of_not_has hhas, entryBeside_of_not_has hhas]
    cases r.under n (setAside r d) with
    | error m => rfl
    | ok u => exact congrArg (fun rest => Except.ok (slots, rest)) hkept.symm

/-- An entry that fills no field can be set aside, or fails for something that is no missing
field. -/
theorem entryBeside_eq_ok {n : String} (hhas : fields.has n = false) (slots : Slots ts)
    (before : List (String × Datum)) (d : Datum)
    (h : d.inWords = true ∨ ∀ m, fields.entryBeside r (slots, before) n d = .error m →
      ∃ missing, m.fault = .missingField missing) :
    fields.entryBeside r (slots, before) n d = .ok (slots, before ++ [(n, d)]) := by
  rw [entryBeside_of_not_has hhas] at h ⊢
  cases haside : r.under n (setAside r d) with
  | ok u => rfl
  | error m =>
    rcases h with hwords | hmissing
    · rw [setAside_of_inWords hwords] at haside
      cases r <;> cases haside
    · obtain ⟨missing, hfault⟩ := hmissing m (by rw [haside]; rfl)
      exact absurd hfault (setAside_not_missing haside)

theorem entriesOf_beside_without (hname : fields.has name = false)
    (entries : List (String × Datum)) (slots : Slots ts) (before : List (String × Datum))
    (h : (∀ e ∈ entries, e.1 = name → e.2.inWords = true) ∨
      ∀ m, entriesOf (fields.entryBeside r) (slots, before) entries = .error m →
        ∃ missing, m.fault = .missingField missing) :
    entriesOf (fields.entryBeside r) (slots, without name before) (without name entries) =
      (entriesOf (fields.entryBeside r) (slots, before) entries).map
        fun s => (s.1, without name s.2) := by
  induction entries generalizing slots before with
  | nil => rfl
  | cons e entries ih =>
    obtain ⟨n, d⟩ := e
    -- what is known of all entries is known of those behind the first
    have hnext : ∀ s, fields.entryBeside r (slots, before) n d = .ok s →
        (∀ e ∈ entries, e.1 = name → e.2.inWords = true) ∨
          ∀ m, entriesOf (fields.entryBeside r) s entries = .error m →
            ∃ missing, m.fault = .missingField missing := by
      intro s hs
      refine h.imp (fun hwords => (List.forall_mem_cons.1 hwords).2) fun hmissing m hm => ?_
      refine hmissing m ?_
      rw [entriesOf_cons, hs]
      exact hm
    rw [entriesOf_cons]
    by_cases hn : n = name
    · subst hn
      have hentry : fields.entryBeside r (slots, before) n d =
          .ok (slots, before ++ [(n, d)]) := by
        refine entryBeside_eq_ok hname slots before d (h.imp (fun hwords =>
          hwords _ List.mem_cons_self rfl) fun hmissing m hm => hmissing m ?_)
        rw [entriesOf_cons, hm]
        rfl
      have hbefore : without n (before ++ [(n, d)]) = without n before := by
        rw [without_append, without_cons_self]
        exact List.append_nil _
      rw [without_cons_self, ← hbefore, hentry]
      exact ih slots _ (hnext _ hentry)
    · rw [without_cons_of_ne hn, entriesOf_cons, entryBeside_without hn]
      cases hentry : fields.entryBeside r (slots, before) n d with
      | error m => rfl
      | ok s => exact ih s.1 s.2 (hnext s hentry)

/-- **A name that is no field's** makes no difference to fields beside another record, if it makes
none to that record and its entry can be set aside, or if a field is missing in any case. -/
theorem overlay_without (rname : String) (others : Form β) (make : Tuple ts → β → α)
    (hname : fields.has name = false)
    (hothers : ∀ entries, others.ofDatum .leftOver (.mapping (without name entries)) =
      others.ofDatum .leftOver (.mapping entries)) (entries : List (String × Datum))
    (h : (∀ e ∈ entries, e.1 = name → e.2.inWords = true) ∨
      ∃ m missing, (Form.overlay rname fields others make).ofDatum r (.mapping entries) = .error m ∧
        m.fault = .missingField missing) :
    (Form.overlay rname fields others make).ofDatum r (.mapping (without name entries)) =
      (Form.overlay rname fields others make).ofDatum r (.mapping entries) := by
  rw [overlay_ofDatum] at h ⊢
  rw [overlay_ofDatum]
  have hfold : entriesOf (fields.entryBeside r) (.empty ts, []) (without name entries) =
      (entriesOf (fields.entryBeside r) (.empty ts, []) entries).map
        fun s => (s.1, without name s.2) := by
    refine entriesOf_beside_without hname entries (.empty ts) [] (h.imp_right ?_)
    rintro ⟨m, missing, hm, hfault⟩ m' hm'
    rw [hm'] at hm
    cases hm
    exact ⟨missing, hfault⟩
  rw [hfold]
  cases entriesOf (fields.entryBeside r) (.empty ts, []) entries with
  | error m => rfl
  | ok read =>
    show (completed fields read.1 >>= fun vs =>
        others.ofDatum .leftOver (.mapping (without name read.2)) >>= fun b => pure (make vs b)) = _
    rw [hothers]
    rfl

end Without

end IndexFeed.Schema
