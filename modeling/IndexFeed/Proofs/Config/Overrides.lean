import IndexFeed.Proofs.Config.VariableNames

/-!
# What a variable changes

A variable sets a datum at its path. With it, a configuration has something else there and, if need
be, mappings on the way there (`SetAt`); paths that lead elsewhere lead to what they led to without
it. This is so of the layer of the environment if no other variable touches the path
(`Environment.setAt_entries`), and it remains so when that layer goes over those of files
(`Layers.setAt_merged`).
-/

namespace IndexFeed.Config

open Schema (Datum)

/-! ### Definitions -/

/-- Neither of two paths leads on from the other. -/
def Path.Apart (P Q : Path) : Prop := ¬ P <+: Q ∧ ¬ Q <+: P

/-- All that a datum has on the way to a path are mappings. -/
def Path.Open (P : Path) (d : Datum) : Prop :=
  ∀ Q v, Q <+: P → Q ≠ P → Path.find? Q d = some v → isMapping v = true

/-- The datum `d'` has `v` at a path, mappings on the way there, and elsewhere what `d` has. -/
structure SetAt (P : Path) (v d d' : Datum) : Prop where
  here : P.find? d' = some v
  way : ∀ Q, Q <+: P → Q ≠ P → ∃ es, Path.find? Q d' = some (.mapping es)
  elsewhere : ∀ Q, Path.Apart P Q → Path.find? Q d' = Path.find? Q d

def Source.isFile : Source → Bool
  | .file .. => true
  | .environment _ => false

/-- What files hold, the later ones over the earlier ones. -/
def held (files : List Source) : Entries :=
  (files.filterMap (·.dictionary? [])).foldl (mergeEntries .join) []

/-! ### Open ways -/

section Open

variable {P Q : Path} {d earlier later : Datum}

theorem Path.not_touches_iff : ¬ P.Touches d ↔ P.find? d = none ∧ P.Open d := by
  unfold Touches Open
  rw [not_or, Option.not_isSome_iff_eq_none]
  refine and_congr_right fun _ => ⟨fun h Q v hpre hne hv => ?_, fun h => ?_⟩
  · by_contra hmapping
    exact h ⟨Q, v, hpre, hne, hv, Bool.eq_false_iff.2 hmapping⟩
  · rintro ⟨Q, v, hpre, hne, hv, hmapping⟩
    exact Bool.eq_false_iff.1 hmapping (h Q v hpre hne hv)

theorem Path.not_touches_nothing (h : P ≠ []) : ¬ P.Touches (.mapping []) := by
  obtain ⟨name, P, rfl⟩ := List.exists_cons_of_ne_nil h
  rw [touches_mapping]
  rintro ⟨d, hd, -⟩
  cases hd

/-- On an open way a datum touches a path only if it has something there. -/
theorem Path.Open.touches_iff (h : P.Open d) (hQ : Q <+: P) : Q.Touches d ↔ (Q.find? d).isSome := by
  refine ⟨fun htouches => ?_, .inl⟩
  rcases htouches with hsome | ⟨R, v, hpre, hne, hv, hmapping⟩
  · exact hsome
  · have hend : R ≠ P := fun heq => hne (hpre.eq_of_length_le (heq ▸ hQ.length_le))
    exact absurd (h R v (hpre.trans hQ) hend hv) (Bool.eq_false_iff.1 hmapping)

/-- What does not touch a path does not do so when more of that kind goes over it. -/
theorem not_touches_merge (rule : SequenceRule) (hlater : Tidy later) (h : ¬ P.Touches earlier)
    (h' : ¬ P.Touches later) : ¬ P.Touches (merge rule earlier later) := by
  rw [Path.not_touches_iff] at h ⊢
  obtain ⟨hnone, hopen⟩ := h
  have hopen' := (Path.not_touches_iff.1 h').2
  refine ⟨by rw [find?_merge hlater, if_neg h', hnone], fun Q v hpre hne hv => ?_⟩
  rw [find?_merge hlater] at hv
  split at hv
  · cases hd : Path.find? Q later with
    | none =>
      rw [hd] at hv
      cases hv
    | some d =>
      have hmapping : isMapping d = true := hopen' Q d hpre hne hd
      rw [hd] at hv
      cases hold : Path.find? Q earlier with
      | none =>
        rw [hold] at hv
        cases hv
        exact hmapping
      | some old =>
        rw [hold] at hv
        cases hv
        exact isMapping_merge.trans hmapping
  · exact hopen Q v hpre hne hv

end Open

/-! ### A datum under a path -/

section Nest

variable {P Q : Path} {v : Datum}

theorem Path.nest_append (P Q : Path) (v : Datum) : Path.nest (P ++ Q) v = P.nest (Q.nest v) := by
  induction P with
  | nil => rfl
  | cons name P ih =>
    rw [List.cons_append, nest, nest, ih]

theorem Path.Apart.find?_nest (h : P.Apart Q) : Q.find? (P.nest v) = none := by
  induction P generalizing Q with
  | nil => exact absurd List.nil_prefix h.1
  | cons name P ih => cases Q with
    | nil => exact absurd List.nil_prefix h.2
    | cons n Q =>
      rw [nest, find?, Entries.get?_cons]
      split
      · next heq =>
        subst heq
        exact ih ⟨fun hpre => h.1 (List.cons_prefix_cons.2 ⟨rfl, hpre⟩),
          fun hpre => h.2 (List.cons_prefix_cons.2 ⟨rfl, hpre⟩)⟩
      · rfl

theorem setAt_nest (P : Path) (v : Datum) : SetAt P v (.mapping []) (P.nest v) := by
  refine ⟨P.find?_nest v, fun Q hpre hne => ?_, fun Q hapart => ?_⟩
  · obtain ⟨rest, rfl⟩ := hpre
    rw [Path.nest_append, Path.find?_nest]
    cases rest with
    | nil => exact absurd (List.append_nil Q).symm hne
    | cons name rest => exact ⟨_, rfl⟩
  · rw [hapart.find?_nest]
    cases Q with
    | nil => exact absurd List.nil_prefix hapart.2
    | cons name Q => rfl

end Nest

/-! ### Through a merge -/

namespace SetAt

variable {P : Path} {v d d' other : Datum}

theorem touches_iff (h : SetAt P v d d') (hopen : P.Open d) {Q : Path} (hapart : P.Apart Q) :
    Q.Touches d' ↔ Q.Touches d := by
  have hway : ∀ R w, R <+: Q → R ≠ Q → isMapping w = false →
      (Path.find? R d' = some w ↔ Path.find? R d = some w) := by
    intro R w hpre hne hw
    by_cases hP : R <+: P
    · have hend : R ≠ P := by
        rintro rfl
        exact hapart.1 hpre
      obtain ⟨es, hes⟩ := h.way R hP hend
      refine iff_of_false (fun hfind => ?_) fun hfind => ?_
      · rw [hes] at hfind
        cases hfind
        cases hw
      · exact Bool.eq_false_iff.1 hw (hopen R w hP hend hfind)
    · rw [h.elsewhere R ⟨fun hpre' => hapart.1 (hpre'.trans hpre), hP⟩]
  unfold Path.Touches
  rw [h.elsewhere Q hapart]
  refine or_congr_right ⟨?_, ?_⟩
  · rintro ⟨R, w, hpre, hne, hfind, hw⟩
    exact ⟨R, w, hpre, hne, (hway R w hpre hne hw).1 hfind, hw⟩
  · rintro ⟨R, w, hpre, hne, hfind, hw⟩
    exact ⟨R, w, hpre, hne, (hway R w hpre hne hw).2 hfind, hw⟩

/-- What is set in the later part is set in the merge, and goes over what was there before. -/
theorem of_later (rule : SequenceRule) (h : SetAt P v d d') (hd : Tidy d) (hd' : Tidy d')
    (hopen : P.Open d) (earlier : Datum) :
    SetAt P ((P.find? earlier).elim v (merge rule · v)) (merge rule earlier d)
      (merge rule earlier d') := by
  refine ⟨?_, fun Q hpre hne => ?_, fun Q hapart => ?_⟩
  · rw [find?_merge hd', if_pos (.inl (Option.isSome_of_eq_some h.here)), h.here]
    cases P.find? earlier <;> rfl
  · obtain ⟨es, hes⟩ := h.way Q hpre hne
    rw [find?_merge hd', if_pos (.inl (Option.isSome_of_eq_some hes)), hes]
    cases Path.find? Q earlier with
    | none => exact ⟨es, rfl⟩
    | some old => cases old <;> exact ⟨_, rfl⟩
  · rw [find?_merge hd', find?_merge hd, h.elsewhere Q hapart]
    exact if_congr (h.touches_iff hopen hapart) rfl rfl

/-- What is set in the earlier part stays set if the later one does not touch it. -/
theorem of_earlier (rule : SequenceRule) (h : SetAt P v d d') (hother : Tidy other)
    (hfree : ¬ P.Touches other) :
    SetAt P v (merge rule d other) (merge rule d' other) := by
  have hopen := (Path.not_touches_iff.1 hfree).2
  refine ⟨?_, fun Q hpre hne => ?_, fun Q hapart => ?_⟩
  · rw [find?_merge hother, if_neg hfree, h.here]
  · obtain ⟨es, hes⟩ := h.way Q hpre hne
    rw [find?_merge hother, hes]
    split
    · next htouches =>
      obtain ⟨w, hw⟩ := Option.isSome_iff_exists.1 ((hopen.touches_iff hpre).1 htouches)
      have hmapping : isMapping w = true := hopen Q w hpre hne hw
      rw [hw]
      cases w with
      | mapping later => exact ⟨_, rfl⟩
      | _ => cases hmapping
    · exact ⟨es, rfl⟩
  · rw [find?_merge hother, find?_merge hother, h.elsewhere Q hapart]

theorem get?_of_ne {name m : String} {es es' : Entries}
    (h : SetAt [name, m] v (.mapping es) (.mapping es')) {n : String} (hn : n ≠ name) :
    es'.get? n = es.get? n := by
  have hapart : Path.Apart [name, m] [n] := by
    constructor <;> simp [hn, Ne.symm hn]
  have hfind := h.elsewhere [n] hapart
  simpa [Path.find?] using hfind

/-- What is set within an entry of a mapping is set in a mapping of its own, and this has nothing
else but what that entry was before. -/
theorem exists_inner {name m : String} {es es' : Entries}
    (h : SetAt [name, m] v (.mapping es) (.mapping es')) :
    ∃ inner, es'.get? name = some (.mapping inner) ∧ Entries.get? inner m = some v ∧
      ∀ n, n ≠ m → Entries.get? inner n = Path.find? [name, n] (.mapping es) := by
  obtain ⟨inner, hinner⟩ := h.way [name] ⟨[m], rfl⟩ (by simp)
  have hentry : es'.get? name = some (.mapping inner) := by simpa [Path.find?] using hinner
  refine ⟨inner, hentry, ?_, fun n hn => ?_⟩
  · simpa [Path.find?, hentry] using h.here
  · have hapart : Path.Apart [name, m] [name, n] := by
      constructor <;> simp [hn, Ne.symm hn]
    rw [← h.elsewhere _ hapart]
    simp [Path.find?, hentry]

end SetAt

/-! ### The layer of the environment -/

namespace Environment

variable {p name : String} {P : Path} {env before after : Environment}

theorem entries_append (p : String) (before after : Environment) :
    entries p (before ++ after) = after.foldl
      (fun es e => mergeEntries .replace es (entriesOf p e.1 e.2)) (entries p before) :=
  List.foldl_append ..

theorem not_touches_entries (hP : P ≠ [])
    (h : ∀ e ∈ env, ¬ P.Touches (.mapping (entriesOf p e.1 e.2))) :
    ¬ P.Touches (.mapping (entries p env)) := by
  induction env using List.reverseRecOn with
  | nil => exact Path.not_touches_nothing hP
  | append_singleton env e ih =>
    rw [entries_append]
    have henv := ih fun e he => h e (List.mem_append_left _ he)
    have he := h e (List.mem_append_right _ (List.mem_singleton_self e))
    exact not_touches_merge .replace (tidy_entriesOf p e.1 e.2) henv he

/-- **A variable among others** sets its value at its path, if none of the others touches it. -/
theorem setAt_entries (hP : P ≠ []) (hname : path? p name = some P) (value : String)
    (hothers : ∀ e ∈ before ++ after, ¬ P.Touches (.mapping (entriesOf p e.1 e.2))) :
    SetAt P (Inline.read value) (.mapping (entries p (before ++ after)))
      (.mapping (entries p (before ++ (name, value) :: after))) := by
  have hbefore : ∀ e ∈ before, ¬ P.Touches (.mapping (entriesOf p e.1 e.2)) :=
    fun e he => hothers e (List.mem_append_left _ he)
  -- the variable over those before it, then those after it over both
  have hstart : SetAt P (Inline.read value) (.mapping (entries p before))
      (.mapping (mergeEntries .replace (entries p before) (entriesOf p name value))) := by
    have hset := (setAt_nest P (Inline.read value)).of_later .replace tidy_nil
      (tidy_nest P (Inline.tidy_read value))
      (Path.not_touches_iff.1 (Path.not_touches_nothing hP)).2 (.mapping (entries p before))
    rw [Path.find?_of_not_touches (not_touches_entries hP hbefore),
      ← mapping_entriesOf hP hname value] at hset
    exact hset
  have hfold : ∀ (es es' : Entries), SetAt P (Inline.read value) (.mapping es) (.mapping es') →
      SetAt P (Inline.read value)
        (.mapping (after.foldl (fun es e => mergeEntries .replace es (entriesOf p e.1 e.2)) es))
        (.mapping (after.foldl (fun es e => mergeEntries .replace es (entriesOf p e.1 e.2)) es'))
      := by
    have hafter : ∀ e ∈ after, ¬ P.Touches (.mapping (entriesOf p e.1 e.2)) :=
      fun e he => hothers e (List.mem_append_right _ he)
    clear hothers
    induction after with
    | nil => exact fun _ _ h => h
    | cons e after ih =>
      intro es es' h
      obtain ⟨he, hrest⟩ := List.forall_mem_cons.1 hafter
      exact ih hrest _ _ (h.of_earlier .replace (tidy_entriesOf p e.1 e.2) he)
  rw [entries_append, entries_append]
  exact hfold _ _ hstart

end Environment

/-! ### The merged configuration -/

namespace Layers

variable {env env' : Environment} {sources files : List Source} {l l' : Layers}

/-- Whether a source can be added, and which prefix it looks up, is no matter of the environment. -/
theorem exists_add (env' : Environment) {source : Source} {l₀ l₀' l₁ : Layers}
    (hsame : l₀'.prefixes = l₀.prefixes) (h : l₀.add env source = .ok l₁) :
    ∃ l₁', l₀'.add env' source = .ok l₁' ∧ l₁'.prefixes = l₁.prefixes := by
  cases source with
  | file format required content =>
    rw [add] at h ⊢
    split at h
    · cases h
      exact ⟨_, rfl, hsame⟩
    · split at h
      · cases h
      · next hrequired =>
        cases h
        exact ⟨l₀', if_neg hrequired, hsame⟩
  | environment p =>
    rw [add] at h ⊢
    split at h
    · cases h
    · next hpre =>
      cases h
      refine ⟨_, if_neg hpre, ?_⟩
      simp only [hsame]

/-- Nor is it that of all sources together. -/
theorem exists_load (env' : Environment) (h : load env sources = .ok l) :
    ∃ l', load env' sources = .ok l' ∧ l'.prefixes = l.prefixes := by
  have hall : ∀ (l₀ l₀' : Layers) (index : Nat), l₀'.prefixes = l₀.prefixes →
      addAll env l₀ index sources = .ok l →
      ∃ l', addAll env' l₀' index sources = .ok l' ∧ l'.prefixes = l.prefixes := by
    clear h
    induction sources with
    | nil =>
      intro l₀ l₀' index hsame h
      cases h
      exact ⟨l₀', rfl, hsame⟩
    | cons source sources ih =>
      intro l₀ l₀' index hsame h
      obtain ⟨l₁, hl₁, h⟩ := addAll_cons_eq_ok.1 h
      obtain ⟨l₁', hl₁', hsame'⟩ := exists_add env' hsame hl₁
      obtain ⟨l', hl', hprefixes⟩ := ih l₁ l₁' _ hsame' h
      exact ⟨l', addAll_cons_eq_ok.2 ⟨l₁', hl₁', hl'⟩, hprefixes⟩
  exact hall {} {} 0 rfl h

theorem merged_load {p : String} (hfiles : ∀ f ∈ files, f.isFile = true)
    (h : load env (files ++ [.environment p]) = .ok l) :
    l.merged = mergeEntries .join (held files)
      (Environment.entries (Environment.normalPrefix p) env) := by
  have hsame : files.filterMap (·.dictionary? env) = files.filterMap (·.dictionary? []) := by
    refine List.filterMap_congr fun f hf => ?_
    cases f with
    | file format required content => rfl
    | environment p => cases hfiles _ hf
  rw [merged, entries_load h, List.filterMap_append, List.foldl_append, hsame]
  rfl

/-- **A variable over files** sets its value at its path, and changes nothing elsewhere. -/
theorem setAt_merged {p : String} {before after : Environment} {name : String} {P : Path}
    (hfiles : ∀ f ∈ files, f.isFile = true) (hP : P ≠ [])
    (hname : Environment.path? (Environment.normalPrefix p) name = some P) (value : String)
    (hothers : ∀ e ∈ before ++ after,
      ¬ P.Touches (.mapping (Environment.entriesOf (Environment.normalPrefix p) e.1 e.2)))
    (h : load (before ++ after) (files ++ [.environment p]) = .ok l)
    (h' : load (before ++ (name, value) :: after) (files ++ [.environment p]) = .ok l') :
    SetAt P ((P.find? (.mapping (held files))).elim (Inline.read value)
      (merge .join · (Inline.read value))) (.mapping l.merged) (.mapping l'.merged) := by
  have hset := Environment.setAt_entries hP hname value hothers
  have hopen := (Path.not_touches_iff.1 (Environment.not_touches_entries hP hothers)).2
  rw [merged_load hfiles h, merged_load hfiles h']
  exact hset.of_later .join (Environment.tidy_entries _ _) (Environment.tidy_entries _ _)
    hopen (.mapping (held files))

end Layers

end IndexFeed.Config
