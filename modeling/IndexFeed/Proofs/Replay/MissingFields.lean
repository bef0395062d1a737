import IndexFeed.Proofs.Config.Precedence
import IndexFeed.Proofs.Config.Prefixes
import IndexFeed.Proofs.Replay.WrongTypes
import IndexFeed.Proofs.Schema.OtherEntries

/-!
# Advice on missing fields

An error of a missing field offers names under which the field may be set: its own, as an entry of
the configuration itself, and the variable of that entry for each prefix. If the field is one of the
configuration itself, any of them helps. The fields of a definition and of an endpoint stand further
in; for them none helps, and the same error comes again (`Target.missing_field_advice`).
-/

namespace IndexFeed

open Config (ConfigError Entries Environment Layers Source Tidy)
open Schema (Datum Fields Form Misfit without)

/-! ### Definitions -/

/-- The fields without a default that stand in the data themselves. -/
def Schema.Form.outer {α : Type} : Form α → List String
  | .record _ fields _ => fields.required
  | .overlay _ fields others _ => fields.required ++ others.outer
  | _ => []

/-- The fields without a default that stand further in. -/
def Schema.Form.inner {α : Type} : Form α → List String
  | .record _ fields _ => fields.within
  | .overlay _ fields others _ => fields.within ++ others.inner
  | _ => []

namespace Config

/-- Two environments differ in nothing but a variable. -/
def Environment.SameBut (v : String) (env env' : Environment) : Prop :=
  env'.filter (·.1 ≠ v) = env.filter (·.1 ≠ v)

/-- Settings cannot be read for lack of a field. -/
def Layers.Lacks {α : Type} (l : Layers) (form : Form α) (name : String) : Prop :=
  ∃ choices, l.extract form = .error (.missingField name choices)

end Config

/-- Whether a field of the data themselves has a name. -/
def Schema.Form.has {α : Type} (name : String) : Form α → Bool
  | .record _ fields _ => fields.has name
  | .overlay _ fields others _ => fields.has name || others.has name
  | _ => false

/-! ### Where a missing field was looked for -/

namespace Target

variable {es es' : Entries} {m : Misfit} {name : String}

/-- A field that is missing stands further in, or nothing stands under its name. -/
theorem missing_origin (t : Target) (htidy : Tidy (.mapping es))
    (h : t.form.ofDatum .configuration (.mapping es) = .error m)
    (hfault : m.fault = .missingField name) :
    (name ∈ t.form.outer ∧ es.get? name = none) ∨ name ∈ t.form.inner := by
  have hdistinct : (es.map Prod.fst).Nodup := htidy.hasDistinctNames
  cases t with
  | router => exact Schema.record_missing rfl (by decide) hdistinct h hfault
  | topology => exact Schema.record_missing rfl (by decide) hdistinct h hfault
  | replay =>
    rcases Schema.overlay_misfit rfl (by decide) h with
      ⟨e, -, hsound⟩ | ⟨missing, hmem, rfl, hnone⟩ | hrouter
    · exact .inr (List.mem_append_left _ (hsound.missing name hfault))
    · cases hfault
      exact .inl ⟨List.mem_append_left _ hmem, hnone hdistinct⟩
    · have hleft : ((ReplaySettings.ownFields.leftOver es).map Prod.fst).Nodup :=
        hdistinct.sublist (List.filter_sublist.map Prod.fst)
      refine (Schema.record_missing rfl (by decide) hleft hrouter hfault).imp ?_
        fun hwithin => List.mem_append_right _ hwithin
      rintro ⟨hmem, hnone⟩
      have hown : ReplaySettings.ownFields.has name = false := by
        obtain rfl : name = "definition" := List.mem_singleton.1 hmem
        decide
      exact ⟨List.mem_append_right _ hmem, (Fields.lookup_leftOver hown es).symm.trans hnone⟩

theorem not_inner_of_outer (t : Target) (h : name ∈ t.form.outer) : name ∉ t.form.inner := by
  have hall : ∀ n ∈ t.form.outer, n ∉ t.form.inner := by cases t <;> decide
  exact hall name h

theorem has_of_inner (t : Target) (h : name ∈ t.form.inner) : t.form.has name = false := by
  have hall : ∀ n ∈ t.form.inner, t.form.has n = false := by cases t <;> decide
  exact hall name h

/-- Variables can name all fields without a default. -/
theorem isAddress_name (t : Target) (h : name ∈ t.form.outer ∨ name ∈ t.form.inner) :
    Environment.IsAddress [name] := by
  have hall : ∀ n ∈ t.form.outer ++ t.form.inner, Environment.IsAddress [n] := by
    cases t <;> decide
  exact hall name (List.mem_append.2 h)

/-- **A field of the configuration itself** is not missing once something stands under its name. -/
theorem not_missing (t : Target) (htidy : Tidy (.mapping es)) (hname : name ∈ t.form.outer)
    (hset : (es.get? name).isSome = true)
    (h : t.form.ofDatum .configuration (.mapping es) = .error m) :
    m.fault ≠ .missingField name := by
  intro hfault
  rcases t.missing_origin htidy h hfault with ⟨-, hnone⟩ | hinner
  · rw [hnone] at hset
    cases hset
  · exact t.not_inner_of_outer hname hinner

theorem get?_without (name : String) (es : Entries) (n : String) :
    Entries.get? (without name es) n = if n = name then none else es.get? n := by
  induction es with
  | nil => simp [without, Entries.get?]
  | cons e es ih =>
    obtain ⟨n', d⟩ := e
    by_cases hn' : n' = name
    · subst hn'
      rw [Schema.without_cons_self, ih, Entries.get?_cons]
      split <;> rfl
    · rw [Schema.without_cons_of_ne hn', Entries.get?_cons, Entries.get?_cons, ih]
      by_cases hn : n = n'
      · subst hn
        rw [if_pos rfl, if_pos rfl, if_neg hn']
      · rw [if_neg hn, if_neg hn]

theorem without_congr (hes : Entries.Sorted es) (hes' : Entries.Sorted es')
    (hsame : ∀ n, n ≠ name → es'.get? n = es.get? n) : without name es' = without name es := by
  refine Entries.ext_of_sorted (hes'.sublist List.filter_sublist)
    (hes.sublist List.filter_sublist) fun n => ?_
  rw [get?_without, get?_without]
  split
  · rfl
  · next hn => exact hsame n hn

/-- **A field that stands further in** is still missing, whatever stands under its name in the
configuration itself. To a replay this has to be something that can be set aside. -/
theorem still_missing (t : Target) (hes : Entries.Sorted es) (hes' : Entries.Sorted es')
    (hsame : ∀ n, n ≠ name → es'.get? n = es.get? n)
    (hwords : t = .replay → (es'.get? name).all Datum.inWords = true)
    (hname : name ∈ t.form.inner)
    (h : t.form.ofDatum .configuration (.mapping es) = .error m)
    (hfault : m.fault = .missingField name) :
    t.form.ofDatum .configuration (.mapping es') = .error m := by
  have hhas := t.has_of_inner hname
  have hwithout := without_congr hes hes' hsame
  -- with the entries under `name` left out, both dictionaries are one
  cases t with
  | router =>
    have hrecord : ∀ es : Entries, RouterSettings.form.ofDatum .configuration
        (.mapping (without name es)) = RouterSettings.form.ofDatum .configuration (.mapping es) :=
      Schema.record_without _ _ hhas
    exact (hrecord es').symm.trans (hwithout ▸ (hrecord es).trans h)
  | topology =>
    have hrecord : ∀ es : Entries, Ring.form.ofDatum .configuration
        (.mapping (without name es)) = Ring.form.ofDatum .configuration (.mapping es) :=
      Schema.record_without _ _ hhas
    exact (hrecord es').symm.trans (hwithout ▸ (hrecord es).trans h)
  | replay =>
    -- the entry is set aside for the router, and can be only if its numbers have at most 64 bits
    obtain ⟨hown, hrouter⟩ := Bool.or_eq_false_iff.1 hhas
    have hoverlay : ∀ es : Entries, ((∀ e ∈ es, e.1 = name → e.2.inWords = true) ∨
        ∃ m missing, ReplaySettings.form.ofDatum .configuration (.mapping es) = .error m ∧
          m.fault = .missingField missing) →
        ReplaySettings.form.ofDatum .configuration (.mapping (without name es)) =
          ReplaySettings.form.ofDatum .configuration (.mapping es) :=
      Schema.overlay_without _ _ _ hown (Schema.record_without _ _ hrouter)
    have hset : ∀ e ∈ es', e.1 = name → e.2.inWords = true := by
      rintro e he rfl
      have hget := Entries.get?_of_mem hes' he
      have hall := hwords rfl
      rw [hget] at hall
      exact hall
    exact (hoverlay es' (.inl hset)).symm.trans
      (hwithout ▸ (hoverlay es (.inr ⟨m, name, h, hfault⟩)).trans h)

end Target

/-! ### Loading again -/

namespace Config.Layers

variable {l l' : Layers} {name : String}

theorem extract_missing {α : Type} {form : Form α} {choices : List String} :
    l.extract form = .error (.missingField name choices) ↔
      ∃ m, form.ofDatum .configuration (.mapping l.merged) = .error m ∧
        m.fault = .missingField name ∧ choices = l.choices name := by
  unfold extract
  cases form.ofDatum .configuration (.mapping l.merged) with
  | ok a => exact ⟨nofun, fun ⟨_, h, _⟩ => nomatch h⟩
  | error m =>
    simp only [Except.error.injEq, exists_eq_left']
    unfold errorOf
    constructor
    · intro h
      split at h
      · next hfault =>
        cases h
        exact ⟨hfault, rfl⟩
      · cases h
      · cases h
    · rintro ⟨hfault, rfl⟩
      rw [hfault]

theorem merged_push (l : Layers) (es : Entries) :
    (l.push es).merged = mergeEntries .join l.merged es := by
  simp [merged, push, List.foldl_append]

theorem get?_merged_push (l : Layers) (name : String) (d : Datum) (n : String) :
    (l.push [(name, d)]).merged.get? n =
      if n = name then overlay .join (l.merged.get? n) (some d) else l.merged.get? n := by
  rw [merged_push, get?_mergeEntries (List.pairwise_singleton ..), Entries.get?_cons]
  by_cases hn : n = name
  · rw [if_pos hn, if_pos hn]
    rfl
  · rw [if_neg hn, if_neg hn]
    rfl

end Config.Layers

/-- **Advice on missing fields.** Let the settings that are wanted lack a field. The error offers
the name of the field and, for each prefix that was looked up, the variable of that name. If the
field is one of the settings themselves, it is never missing again once anything is loaded under
that name, or the variable is set to anything. If it stands further in, nothing of the kind helps
that a field may hold, nor does the variable if it begins with no other prefix: the same error comes
again. (A replay has to set the entry aside, which needs whole numbers of at most 64 bits.) -/
theorem Target.missing_field_advice (t : Target) {env : Environment} {sources : List Source}
    {l : Layers} (hl : Layers.load env sources = .ok l) {name : String} {choices : List String}
    (h : l.extract t.form = .error (.missingField name choices)) :
    choices = name :: l.prefixes.map (fun p => Environment.variableOf p name) ∧
    (name ∈ t.form.outer →
      (∀ d, Tidy d → ¬ (l.push [(name, d)]).Lacks t.form name) ∧
      ∀ p ∈ l.prefixes, Environment.BeginsClear p →
        ∀ env' value, (Environment.variableOf p name, value) ∈ env' →
          ∃ l', Layers.load env' sources = .ok l' ∧ ¬ l'.Lacks t.form name) ∧
    (name ∉ t.form.outer →
      (∀ d, Config.isScalar d = true → d.inWords = true →
        (l.push [(name, d)]).extract t.form = .error (.missingField name choices)) ∧
      ∀ p ∈ l.prefixes, Environment.BeginsClear p →
        (∀ q ∈ l.prefixes, q ≠ p →
          Environment.begins q (Environment.variableOf p name) = false) →
        ∀ env', Environment.SameBut (Environment.variableOf p name) env env' →
          ∃ l', Layers.load env' sources = .ok l' ∧
            ((t = .replay → (l'.merged.get? name).all Datum.inWords = true) →
              l'.extract t.form = .error (.missingField name choices))) := by
  obtain ⟨m, hm, hfault, rfl⟩ := Layers.extract_missing.1 h
  have htidy := Layers.tidy_merged hl
  have horigin := t.missing_origin htidy hm hfault
  have hpath : ∀ p, Environment.BeginsClear p →
      Environment.path? p (Environment.variableOf p name) = some [name] := by
    intro p hp
    have hname := Environment.path?_variableOf hp (t.isAddress_name (horigin.imp_left And.left))
    rwa [Config.Path.pointed_singleton] at hname
  refine ⟨rfl, fun houter => ⟨?_, ?_⟩, fun houter => ?_⟩
  -- an outer field is no longer missing once there is any entry for it
  · rintro d hd ⟨choices', h'⟩
    obtain ⟨m', hm', hfault', -⟩ := Layers.extract_missing.1 h'
    have hmerge : Tidy (Config.merge .join (.mapping l.merged) (.mapping [(name, d)])) :=
      Config.tidy_merge htidy (Config.tidy_nest [name] hd)
    have htidy' : Tidy (.mapping (l.push [(name, d)]).merged) := by
      rw [Layers.merged_push]
      exact hmerge
    refine t.not_missing htidy' houter ?_ hm' hfault'
    rw [Layers.get?_merged_push, if_pos rfl]
    rfl
  · intro p hp hclear env' value hmem
    obtain ⟨l', hl', hprefixes⟩ := Layers.exists_load env' hl
    refine ⟨l', hl', ?_⟩
    rintro ⟨choices', h'⟩
    obtain ⟨m', hm', hfault', -⟩ := Layers.extract_missing.1 h'
    exact t.not_missing (Layers.tidy_merged hl') houter
      (Layers.isSome_of_variable hl' (hprefixes ▸ hp) (hpath p hclear) hmem) hm' hfault'
  -- an inner field is looked up one level further down, so the very same misfit comes again
  · have hinner : name ∈ t.form.inner := horigin.resolve_left fun h => houter h.1
    refine ⟨fun d hscalar hwords => ?_, fun p hp hclear hother env' hsame => ?_⟩
    · have hsorted : Entries.Sorted (l.push [(name, d)]).merged := by
        rw [Layers.merged_push]
        exact Config.sorted_mergeEntries .join htidy.sorted _
      refine Layers.extract_missing.2 ⟨m, ?_, hfault, rfl⟩
      refine t.still_missing htidy.sorted hsorted (fun n hn => ?_) (fun _ => ?_) hinner hm hfault
      · rw [Layers.get?_merged_push, if_neg hn]
      · rw [Layers.get?_merged_push, if_pos rfl, Config.overlay_of_isScalar hscalar]
        exact hwords
    · obtain ⟨l', hl', hprefixes⟩ := Layers.exists_load env' hl
      refine ⟨l', hl', fun hwords => Layers.extract_missing.2 ⟨m, ?_, hfault, ?_⟩⟩
      · refine t.still_missing htidy.sorted (Layers.tidy_merged hl').sorted (fun n hn => ?_) hwords
          hinner hm hfault
        refine Layers.get?_merged_of_ne hl hl' (fun q hq => ?_) hn hsame
        by_cases hqp : q = p
        · exact .inl (hqp ▸ hpath p hclear)
        · exact .inr (hother q hq hqp)
      · rw [Layers.choices, Layers.choices, hprefixes]

/-- The field and the names that an error of a missing field tells, if a result is one. -/
def Config.missingField? {α : Type} : Except ConfigError α → Option (String × List String)
  | .error (.missingField name choices) => some (name, choices)
  | _ => none

theorem Config.eq_of_missingField? {α : Type} {x : Except ConfigError α} {name : String}
    {choices : List String} (h : missingField? x = some (name, choices)) :
    x = .error (.missingField name choices) := by
  unfold missingField? at h
  split at h
  · cases h
    rfl
  · cases h

/-- A file whose definition has no source, without key fields, and the environment over it. -/
def sourcelessSources : List Source :=
  [Config.jsonFile "\x7b\"definition\":\x7b\"instance_id\":3\x7d\x7d", .environment "dp"]

/-- Key fields are missing until their variable is set. -/
theorem Target.missing_field_advice_key_fields :
    ∃ l, Layers.load [] sourcelessSources = .ok l ∧
      l.extract Target.replay.form =
        .error (.missingField "key_fields" ["key_fields", "DP_KEY_FIELDS"]) ∧
      ∃ l', Layers.load [("DP_KEY_FIELDS", "[a]")] sourcelessSources = .ok l' ∧
        ¬ l'.Lacks Target.replay.form "key_fields" := by
  have hload : (Layers.load [] sourcelessSources).toOption.any (fun l =>
      l.prefixes = ["DP_"] && Config.missingField? (l.extract Target.replay.form) =
        some ("key_fields", ["key_fields", "DP_KEY_FIELDS"])) = true := by
    decide +kernel
  obtain ⟨l, hl, hread⟩ := exists_of_any_toOption hload
  obtain ⟨hprefixes, hmissing⟩ := Bool.and_eq_true_iff.1 hread
  have herror := Config.eq_of_missingField? (of_decide_eq_true hmissing)
  have hp : "DP_" ∈ l.prefixes := by
    rw [of_decide_eq_true hprefixes]
    exact List.mem_singleton_self _
  have hname : Environment.variableOf "DP_" "key_fields" = "DP_KEY_FIELDS" := by decide +kernel
  have hset : (Environment.variableOf "DP_" "key_fields", "[a]") ∈
      [("DP_KEY_FIELDS", "[a]")] := by
    rw [hname]
    exact List.mem_singleton_self _
  obtain ⟨l', hl', hhas⟩ := ((Target.replay.missing_field_advice hl herror).2.1 (by decide)).2 "DP_"
    hp (by decide +kernel) [("DP_KEY_FIELDS", "[a]")] "[a]" hset
  exact ⟨l, hl, herror, l', hl', hhas⟩

/-- The source of a definition is missing as before once the variable that is offered is set. -/
theorem Target.advice_on_source_fails :
    ∃ l l', Layers.load [] sourcelessSources = .ok l ∧
      l.extract Target.router.form = .error (.missingField "source" ["source", "DP_SOURCE"]) ∧
      Layers.load [("DP_SOURCE", "orders")] sourcelessSources = .ok l' ∧
      l'.extract Target.router.form = .error (.missingField "source" ["source", "DP_SOURCE"]) := by
  have hmissing : ∀ env : Environment, (Layers.load env sourcelessSources).toOption.any (fun l =>
      Config.missingField? (l.extract Target.router.form) =
        some ("source", ["source", "DP_SOURCE"])) = true →
      ∃ l, Layers.load env sourcelessSources = .ok l ∧ l.extract Target.router.form =
        .error (.missingField "source" ["source", "DP_SOURCE"]) := by
    intro env h
    obtain ⟨l, hl, hread⟩ := exists_of_any_toOption h
    exact ⟨l, hl, Config.eq_of_missingField? (of_decide_eq_true hread)⟩
  obtain ⟨l, hl, herror⟩ := hmissing [] (by decide +kernel)
  obtain ⟨l', hl', herror'⟩ := hmissing [("DP_SOURCE", "orders")] (by decide +kernel)
  exact ⟨l, l', hl, herror, hl', herror'⟩

end IndexFeed
