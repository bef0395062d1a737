import IndexFeed.Proofs.Config.Overrides

/-!
# Variables of a single name

A variable of a single name sets that entry of a configuration itself: whatever else is loaded, the
entry is there (`Layers.isSome_of_variable`). It has no other effect: two environments that differ
in nothing but the variable make configurations that differ in nothing but the entry, if no other
prefix is one of the variable's (`Layers.get?_merged_of_ne`).
-/

namespace IndexFeed.Config

open Schema (Datum)

/-! ### Entries that are set -/

section Merge

variable {rule : SequenceRule} {es later : Entries} {n : String}

theorem isSome_get?_mergeEntries (h : Entries.Sorted later)
    (hn : (es.get? n).isSome = true ∨ (later.get? n).isSome = true) :
    (Entries.get? (mergeEntries rule es later) n).isSome = true := by
  rw [get?_mergeEntries h]
  split
  · next hlater =>
    obtain ⟨d, hd⟩ := Option.isSome_iff_exists.1 hlater
    rw [hd]
    rfl
  · next hlater => exact hn.resolve_right hlater

/-- What one layer sets, no later one removes. -/
theorem isSome_get?_foldl {layers : List Entries} (h : ∀ es ∈ layers, Entries.Sorted es)
    {start : Entries}
    (hn : (start.get? n).isSome = true ∨ ∃ es ∈ layers, (Entries.get? es n).isSome = true) :
    (Entries.get? (layers.foldl (mergeEntries rule) start) n).isSome = true := by
  induction layers generalizing start with
  | nil =>
    rcases hn with hn | ⟨es, hes, -⟩
    · exact hn
    · cases hes
  | cons es layers ih =>
    obtain ⟨hes, hlayers⟩ := List.forall_mem_cons.1 h
    refine ih hlayers ?_
    rcases hn with hn | ⟨es', hmem, hn⟩
    · exact .inl (isSome_get?_mergeEntries hes (.inl hn))
    · rcases List.mem_cons.1 hmem with rfl | hmem
      · exact .inl (isSome_get?_mergeEntries hes (.inr hn))
      · exact .inr ⟨es', hmem, hn⟩

theorem get?_foldl_congr {layers layers' : List Entries} (h : List.Forall₂ (fun es es' =>
      Entries.Sorted es ∧ Entries.Sorted es' ∧ Entries.get? es n = Entries.get? es' n)
      layers layers') {start start' : Entries} (hstart : start.get? n = start'.get? n) :
    Entries.get? (layers.foldl (mergeEntries rule) start) n =
      Entries.get? (layers'.foldl (mergeEntries rule) start') n := by
  induction h generalizing start start' with
  | nil => exact hstart
  | cons hes _ ih =>
    obtain ⟨hsorted, hsorted', hget⟩ := hes
    refine ih ?_
    rw [get?_mergeEntries hsorted, get?_mergeEntries hsorted', hget, hstart]

end Merge

/-! ### The layer of an environment -/

namespace Environment

variable {p v : String} {env env' : Environment} {name n : String}

theorem entriesOf_of_single (h : path? p v = some [name]) (value : String) :
    entriesOf p v value = [(name, Inline.read value)] := by
  rw [entriesOf, h]
  rfl

theorem isSome_get?_entries (h : path? p v = some [name]) {value : String}
    (hmem : (v, value) ∈ env) : (Entries.get? (entries p env) name).isSome = true := by
  have hentries : entries p env =
      (env.map fun e => entriesOf p e.1 e.2).foldl (mergeEntries .replace) [] := by
    rw [List.foldl_map]
    rfl
  rw [hentries]
  refine isSome_get?_foldl (fun es hes => ?_) (.inr ⟨_, List.mem_map_of_mem hmem, ?_⟩)
  · obtain ⟨e, -, rfl⟩ := List.mem_map.1 hes
    exact (tidy_entriesOf p e.1 e.2).sorted
  · rw [entriesOf_of_single h, Entries.get?_cons, if_pos rfl]
    rfl

/-- Two environments that differ in nothing but a variable make layers that differ in nothing but
what the variable sets. -/
theorem get?_entries_of_ne (h : path? p v = some [name] ∨ begins p v = false) (hn : n ≠ name)
    (hsame : env'.filter (·.1 ≠ v) = env.filter (·.1 ≠ v)) :
    Entries.get? (entries p env') n = Entries.get? (entries p env) n := by
  have hnone : ∀ value, Entries.get? (entriesOf p v value) n = none := by
    intro value
    rcases h with h | h
    · rw [entriesOf_of_single h, Entries.get?_cons, if_neg hn]
      rfl
    · rw [entriesOf_of_not_begins h]
      rfl
  have hfilter : ∀ env : Environment,
      Entries.get? (entries p (env.filter (·.1 ≠ v))) n = Entries.get? (entries p env) n := by
    refine fun env => get?_entries_filter fun e _ he => ?_
    have hv : e.1 = v := by simpa using he
    rw [hv]
    exact hnone e.2
  rw [← hfilter env', hsame, hfilter]

end Environment

/-! ### Merged configurations -/

namespace Layers

variable {env env' : Environment} {sources : List Source} {l l' : Layers}

theorem mem_prefixes_add {source : Source} {l₀ l₁ : Layers} (h : l₀.add env source = .ok l₁)
    {p : String} : p ∈ l₁.prefixes ↔
      p ∈ l₀.prefixes ∨ ∃ q, source = .environment q ∧ Environment.normalPrefix q = p := by
  cases source with
  | file format required content =>
    have hsame : l₁.prefixes = l₀.prefixes := by
      rw [add] at h
      split at h
      · cases h
        rfl
      · split at h <;> cases h
        rfl
    simp [hsame]
  | environment q =>
    rw [add] at h
    split at h
    · cases h
    · cases h
      dsimp only
      split
      · next hmem =>
        refine ⟨.inl, fun hp => hp.elim id ?_⟩
        rintro ⟨q', heq, rfl⟩
        cases heq
        exact hmem
      · simp [eq_comm]

theorem mem_prefixes (h : load env sources = .ok l) {p : String} :
    p ∈ l.prefixes ↔ ∃ q, Source.environment q ∈ sources ∧ Environment.normalPrefix q = p := by
  have hall : ∀ (l₀ : Layers) (index : Nat), addAll env l₀ index sources = .ok l →
      (p ∈ l.prefixes ↔ p ∈ l₀.prefixes ∨
        ∃ q, Source.environment q ∈ sources ∧ Environment.normalPrefix q = p) := by
    clear h
    induction sources with
    | nil =>
      intro l₀ index h
      cases h
      simp
    | cons source sources ih =>
      intro l₀ index h
      obtain ⟨l₁, hl₁, h⟩ := addAll_cons_eq_ok.1 h
      rw [ih l₁ _ h, mem_prefixes_add hl₁, or_assoc]
      refine or_congr_right ⟨?_, ?_⟩
      · rintro (⟨q, rfl, hq⟩ | ⟨q, hmem, hq⟩)
        · exact ⟨q, List.mem_cons_self, hq⟩
        · exact ⟨q, List.mem_cons_of_mem _ hmem, hq⟩
      · rintro ⟨q, hmem, hq⟩
        rcases List.mem_cons.1 hmem with rfl | hmem
        · exact .inl ⟨q, rfl, hq⟩
        · exact .inr ⟨q, hmem, hq⟩
  simpa using hall {} 0 h

/-- **What a variable of a single name sets is there.** -/
theorem isSome_of_variable (h : load env sources = .ok l) {p v name value : String}
    (hp : p ∈ l.prefixes) (hv : Environment.path? p v = some [name]) (hmem : (v, value) ∈ env) :
    (l.merged.get? name).isSome = true := by
  obtain ⟨q, hq, rfl⟩ := (mem_prefixes h).1 hp
  refine isSome_get?_foldl (fun es hes => (tidy_of_mem_entries h hes).sorted) (.inr
    ⟨Environment.entries (Environment.normalPrefix q) env, ?_,
      Environment.isSome_get?_entries hv hmem⟩)
  rw [entries_load h]
  exact List.mem_filterMap.2 ⟨.environment q, hq, rfl⟩

/-- **It sets nothing else.** -/
theorem get?_merged_of_ne (h : load env sources = .ok l) (h' : load env' sources = .ok l')
    {v name n : String}
    (hv : ∀ q ∈ l.prefixes, Environment.path? q v = some [name] ∨ Environment.begins q v = false)
    (hn : n ≠ name) (hsame : env'.filter (·.1 ≠ v) = env.filter (·.1 ≠ v)) :
    l'.merged.get? n = l.merged.get? n := by
  have hsources : ∀ source ∈ sources, ∀ q, source = .environment q →
      Environment.normalPrefix q ∈ l.prefixes := by
    rintro source hmem q rfl
    exact (mem_prefixes h).2 ⟨q, hmem, rfl⟩
  -- layer by layer the entries under `n` agree, and merging looks at these only
  have hlayers : List.Forall₂ (fun es es' => Entries.Sorted es ∧ Entries.Sorted es' ∧
      Entries.get? es n = Entries.get? es' n) l'.entries l.entries := by
    rw [entries_load h', entries_load h]
    clear h h'
    induction sources with
    | nil => exact .nil
    | cons source sources ih =>
      obtain ⟨hsource, hrest⟩ := List.forall_mem_cons.1 hsources
      cases source with
      | file format required content =>
        have hdictionary : (Source.file format required content).dictionary? env' =
            (Source.file format required content).dictionary? env := rfl
        rw [List.filterMap_cons, List.filterMap_cons, hdictionary]
        cases hes : (Source.file format required content).dictionary? env with
        | none => exact ih hrest
        | some es =>
          have hsorted := (Source.tidy_dictionary? hes).sorted
          exact .cons ⟨hsorted, hsorted, rfl⟩ (ih hrest)
      | environment q =>
        exact .cons ⟨(Environment.tidy_entries _ env').sorted,
          (Environment.tidy_entries _ env).sorted,
          Environment.get?_entries_of_ne (hv _ (hsource q rfl)) hn hsame⟩ (ih hrest)
  exact get?_foldl_congr hlayers rfl

end Layers

end IndexFeed.Config
