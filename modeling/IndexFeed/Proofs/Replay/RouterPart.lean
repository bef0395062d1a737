import IndexFeed.Config.Layers
import IndexFeed.Proofs.Config.Sources
import IndexFeed.Proofs.Schema.TwoReadings
import IndexFeed.Replay.Settings

/-!
# The router of a replay

A replay takes the settings of its router from the entries that its own fields leave over. A router
on its own takes them from the whole configuration. The two come to the same (`router_part`), except
for data that only one of them allows: an option with an empty mapping, which only a replay allows
(`Config.hasEmptyOption`), and what can be read only where it stands, which only a router on its own
allows (`Config.onlyInPlace`).
-/

namespace IndexFeed

open Config (Entries Environment Layers Source)
open Schema (Alike Datum Fields Form readsAlike_choice readsAlike_flag readsAlike_record
  readsAlike_text readsAlike_word)

/-! ### Definitions -/

/-- The fields of a replay beside those of its router. -/
def ReplaySettings.ownFields : Fields [Ring, List String, UInt64] :=
  .cons "topology" Ring.form (some {})
    (.cons "key_fields" (.list .text) none (.cons "flush_every" (.word .size) (some 64) .nil))

/-- Whether a definition is read only where it stands: it has a character for a text, or more items
than there are fields. -/
def Definition.onlyInPlace (d : Datum) : Bool :=
  (d.place 0 "source").any Datum.isChar || (d.place 2 "function_name").any Datum.isChar ||
    d.hasMoreItems 4

namespace Config

/-- Whether a configuration has proper values for the fields of a replay beside those of its router,
or none where a default stands for them. -/
def hasOwnFields (es : Entries) : Bool :=
  (es.get? "topology").all (fun d => (Ring.form.value? .configuration d).isSome) &&
    (es.get? "key_fields").any (fun d => ((Form.list .text).value? .configuration d).isSome) &&
    (es.get? "flush_every").all fun d => ((Form.word .size).value? .configuration d).isSome

/-- Whether a feed version or a policy comes with an empty mapping. -/
def hasEmptyOption (es : Entries) : Bool :=
  (es.get? "feed_version").any Datum.hasEmptyContent ||
    (es.get? "unknown_opcodes").any Datum.hasEmptyContent

/-- Whether a configuration, but for the fields of a replay beside those of its router, is read only
where it stands: some entry has a whole number of more than 64 bits, the definition is so, or a feed
version or a policy is a mapping of several options. -/
def onlyInPlace (es : Entries) : Bool :=
  es.any (fun e => !ReplaySettings.ownFields.has e.1 && !e.2.inWords) ||
    ((es.get? "definition").any Definition.onlyInPlace ||
      ((es.get? "feed_version").any Datum.hasManyOptions ||
        (es.get? "unknown_opcodes").any Datum.hasManyOptions))

end Config

/-! ### Reading the settings of a router -/

theorem Config.Tidy.hasDistinctNames {d : Datum} (h : Config.Tidy d) : d.HasDistinctNames := by
  cases d with
  | mapping entries => exact List.pairwise_map.2 (h.sorted.imp fun hlt => ne_of_lt hlt)
  | _ => trivial

theorem Definition.readsAlike {d : Datum} (hd : d.HasDistinctNames) :
    Definition.form.ReadsAlike d false (Definition.onlyInPlace d) := by
  have hfields := Fields.alike_cons (Form.alike_valueOr? readsAlike_text none (d.place 0 "source"))
    (Fields.alike_cons (Form.alike_valueOr? (readsAlike_word .long) none (d.place 1 "instance_id"))
      (Fields.alike_cons (Form.alike_valueOr? readsAlike_text (some "") (d.place 2 "function_name"))
        (Fields.alike_cons
          (Form.alike_valueOr? readsAlike_flag (some false) (d.place 3 "retain_deleted_xattr"))
          (Fields.alike_nil _))))
  have hrecord : Definition.form.ReadsAlike d _ _ := readsAlike_record _ _ (by decide) hd hfields
  simpa [Definition.onlyInPlace, Fields.count, Bool.or_assoc] using hrecord

theorem FeedVersion.readsAlike (d : Datum) :
    FeedVersion.form.ReadsAlike d d.hasEmptyContent d.hasManyOptions := readsAlike_choice _ rfl d

theorem UnknownOpcodes.readsAlike (d : Datum) :
    UnknownOpcodes.form.ReadsAlike d d.hasEmptyContent d.hasManyOptions := readsAlike_choice _ rfl d

theorem RouterSettings.readsAlike {es : Entries} (h : Config.Tidy (.mapping es)) :
    RouterSettings.form.ReadsAlike (.mapping es) (Config.hasEmptyOption es)
      ((es.get? "definition").any Definition.onlyInPlace ||
        ((es.get? "feed_version").any Datum.hasManyOptions ||
          (es.get? "unknown_opcodes").any Datum.hasManyOptions)) := by
  have hdefinition : Alike false ((es.get? "definition").any Definition.onlyInPlace)
      (Definition.form.valueOr? .configuration none ((Datum.mapping es).place 0 "definition"))
      (Definition.form.valueOr? .leftOver none ((Datum.mapping es).place 0 "definition")) := by
    show Alike false _ (Definition.form.valueOr? .configuration none (es.get? "definition"))
      (Definition.form.valueOr? .leftOver none (es.get? "definition"))
    cases hd : es.get? "definition" with
    | none => exact Alike.refl _
    | some d => exact Definition.readsAlike (h.get? hd).hasDistinctNames
  have hfields := Fields.alike_cons hdefinition
    (Fields.alike_cons (Form.alike_valueOr? FeedVersion.readsAlike (some .current)
        ((Datum.mapping es).place 1 "feed_version"))
      (Fields.alike_cons (Form.alike_valueOr? UnknownOpcodes.readsAlike (some .drop)
          ((Datum.mapping es).place 2 "unknown_opcodes"))
        (Fields.alike_nil _)))
  have hrecord : RouterSettings.form.ReadsAlike (.mapping es) _ _ :=
    readsAlike_record _ _ (by decide) h.hasDistinctNames hfields
  simp only [Bool.or_false, Bool.false_or, Datum.hasMoreItems] at hrecord
  exact hrecord

/-- A router is not concerned with the entries of a replay's own. -/
theorem RouterSettings.value?_leftOver (r : Schema.Reading) {es : Entries}
    (h : Config.Tidy (.mapping es)) :
    RouterSettings.form.value? r (.mapping (ReplaySettings.ownFields.leftOver es)) =
      RouterSettings.form.value? r (.mapping es) :=
  Schema.value?_record_leftOver _ _ (by decide) (by decide) h.hasDistinctNames

/-! ### Reading the settings of a replay -/

namespace ReplaySettings

theorem values?_ownFields {es : Entries} (h : Config.hasOwnFields es = true) :
    ∃ vs, ownFields.values? .configuration (Datum.mapping es).place = some vs := by
  rw [Config.hasOwnFields, Bool.and_eq_true, Bool.and_eq_true] at h
  obtain ⟨⟨htopology, hkeyFields⟩, hflushEvery⟩ := h
  have hvalue : ∀ {α : Type} (form : Form α) (default : α) (found : Option Datum),
      found.all (fun d => (form.value? .configuration d).isSome) = true →
      ∃ v, form.valueOr? .configuration (some default) found = some v := by
    intro α form default found hfound
    cases found with
    | none => exact ⟨default, rfl⟩
    | some d => exact Option.isSome_iff_exists.1 hfound
  obtain ⟨topology, ht⟩ := hvalue Ring.form {} _ htopology
  obtain ⟨flushEvery, hf⟩ := hvalue (.word .size) 64 _ hflushEvery
  -- nothing stands for missing key fields
  obtain ⟨keyFields, hk⟩ : ∃ v, (Form.list .text).valueOr? .configuration none
      (es.get? "key_fields") = some v := by
    obtain ⟨d, hd, hlist⟩ := (Option.any_eq_true _ _).1 hkeyFields
    rw [hd]
    exact Option.isSome_iff_exists.1 hlist
  exact ⟨_, Fields.values?_cons ht (Fields.values?_cons hk (Fields.values?_cons hf rfl))⟩

/-- The router of a replay comes from the whole configuration, set aside. -/
theorem map_router_value? {es : Entries} (htidy : Config.Tidy (.mapping es))
    (h : Config.hasOwnFields es = true) :
    (form.value? .configuration (.mapping es)).map (·.router) =
      if Schema.entriesInWords (ownFields.leftOver es) then
        RouterSettings.form.value? .leftOver (.mapping es)
      else none := by
  have hform : form = .overlay "ReplayConfiguration" ownFields RouterSettings.form _ := rfl
  obtain ⟨vs, hvs⟩ := values?_ownFields h
  rw [hform, Schema.value?_overlay _ _ _ (by decide) htidy.hasDistinctNames, hvs,
    RouterSettings.value?_leftOver _ htidy]
  split
  · rw [Option.bind_some, Option.map_map]
    exact congrFun Option.map_id _
  · rfl

/-- Apart from what only one of them allows, a replay has just the settings of a router that is read
from the same configuration. -/
theorem router_alike {es : Entries} (htidy : Config.Tidy (.mapping es))
    (h : Config.hasOwnFields es = true) :
    Alike (Config.hasEmptyOption es) (Config.onlyInPlace es)
      (RouterSettings.form.value? .configuration (.mapping es))
      ((form.value? .configuration (.mapping es)).map (·.router)) := by
  have hwords : Schema.entriesInWords (ownFields.leftOver es) =
      !es.any fun e => !ownFields.has e.1 && !e.2.inWords := by
    rw [Schema.entriesInWords_eq_all, Fields.leftOver, List.all_filter]
    simp [List.not_any_eq_all_not]
  have hrouter := RouterSettings.readsAlike htidy
  rw [map_router_value? htidy h, hwords, Config.onlyInPlace]
  -- a number of more than 64 bits stops the replay before anything of the router is read
  cases es.any fun e => !ownFields.has e.1 && !e.2.inWords with
  | true => exact ⟨hrouter.here_none, fun _ => rfl, nofun⟩
  | false => exact hrouter

end ReplaySettings

/-! ### Extraction -/

theorem Config.Layers.extract_eq_ok {α : Type} {l : Layers} {form : Form α} {a : α} :
    l.extract form = .ok a ↔ form.value? .configuration (.mapping l.merged) = some a := by
  unfold extract Form.value?
  cases form.ofDatum .configuration (.mapping l.merged) with
  | error m => exact ⟨nofun, nofun⟩
  | ok b =>
    refine ⟨fun h => ?_, fun h => ?_⟩
    · cases h
      rfl
    · cases h
      rfl

/-- **The router of a replay.** Let the configuration that sources make have proper values for the
fields of a replay's own. A router on its own refuses an option with an empty mapping, and a replay
refuses what is read only where it stands. Otherwise both accept the same configurations, and the
router of the replay has the settings of the one on its own. -/
theorem ReplaySettings.router_part {env : Environment} {sources : List Source} {l : Layers}
    (h : Layers.load env sources = .ok l) (hown : Config.hasOwnFields l.merged = true) :
    (∀ s, l.extract RouterSettings.form = .ok s → Config.hasEmptyOption l.merged = false) ∧
      (∀ s, l.extract ReplaySettings.form = .ok s → Config.onlyInPlace l.merged = false) ∧
      (Config.hasEmptyOption l.merged = false → Config.onlyInPlace l.merged = false →
        ∀ s, l.extract RouterSettings.form = .ok s ↔
          ∃ s', l.extract ReplaySettings.form = .ok s' ∧ s'.router = s) := by
  have halike := router_alike (Layers.tidy_merged h) hown
  refine ⟨fun s hs => ?_, fun s hs => ?_, fun hplain hmovable s => ?_⟩
  · rw [Layers.extract_eq_ok] at hs
    refine Bool.eq_false_iff.2 fun hempty => ?_
    rw [halike.here_none hempty] at hs
    cases hs
  · rw [Layers.extract_eq_ok] at hs
    refine Bool.eq_false_iff.2 fun hplace => ?_
    have hnone := halike.aside_none hplace
    rw [hs] at hnone
    cases hnone
  · rw [Layers.extract_eq_ok, halike.agree hplain hmovable, Option.map_eq_some_iff]
    simp only [Layers.extract_eq_ok]

/-- A file with a definition and key fields, and the environment over it. -/
def replaySources : List Source :=
  [Config.jsonFile "\x7b\"definition\":[\"a\",1],\"key_fields\":[\"b\"]\x7d", .environment "dp"]

/-- A file whose feed version is the mapping `version`. -/
def versionSources (version : String) : List Source :=
  [Config.jsonFile ("\x7b\"definition\":[\"a\",1],\"feed_version\":" ++ version ++
    ",\"key_fields\":[]\x7d")]

theorem exists_of_any_toOption {ε α : Type} {x : Except ε α} {p : α → Bool}
    (h : x.toOption.any p = true) : ∃ a, x = .ok a ∧ p a = true := by
  obtain ⟨a, ha, hp⟩ := (Option.any_eq_true _ _).1 h
  exact ⟨a, Schema.toOption_eq_some.1 ha, hp⟩

/-- A replay and a router on its own read the same version from the environment. -/
theorem ReplaySettings.router_part_watson :
    ∃ l s, Layers.load [("DP_FEED_VERSION", "watson")] replaySources = .ok l ∧
      s.feedVersion = .watson ∧ l.extract RouterSettings.form = .ok s ∧
      ∃ s', l.extract ReplaySettings.form = .ok s' ∧ s'.router = s := by
  have hload : (Layers.load [("DP_FEED_VERSION", "watson")] replaySources).toOption.any (fun l =>
      Config.hasOwnFields l.merged && !Config.hasEmptyOption l.merged &&
        !Config.onlyInPlace l.merged &&
        (l.extract RouterSettings.form).toOption.any (·.feedVersion == .watson)) = true := by
    decide +kernel
  obtain ⟨l, hl, hread⟩ := exists_of_any_toOption hload
  simp only [Bool.and_eq_true, Bool.not_eq_true'] at hread
  obtain ⟨⟨⟨hown, hplain⟩, hmovable⟩, hrouter⟩ := hread
  obtain ⟨s, hs, hversion⟩ := exists_of_any_toOption hrouter
  exact ⟨l, s, hl, eq_of_beq hversion, hs, ((router_part hl hown).2.2 hplain hmovable s).1 hs⟩

theorem exists_extract_ne {α β : Type} (form : Form α) (other : Form β) {sources : List Source}
    (h : (Layers.load [] sources).toOption.any (fun l => Config.hasOwnFields l.merged &&
      (l.extract form).toOption.isSome && (l.extract other).toOption.isNone) = true) :
    ∃ l a, Layers.load [] sources = .ok l ∧ Config.hasOwnFields l.merged = true ∧
      l.extract form = .ok a ∧ ∀ b, l.extract other ≠ .ok b := by
  obtain ⟨l, hl, hread⟩ := exists_of_any_toOption h
  simp only [Bool.and_eq_true] at hread
  obtain ⟨⟨hown, hsome⟩, hnone⟩ := hread
  obtain ⟨a, ha⟩ := Option.isSome_iff_exists.1 hsome
  refine ⟨l, a, hl, hown, Schema.toOption_eq_some.1 ha, fun b hb => ?_⟩
  rw [hb] at hnone
  cases hnone

/-- Of several versions only a router on its own takes one, and a version with an empty mapping is
taken only by a replay. -/
theorem ReplaySettings.acceptance_differs :
    (∃ l s, Layers.load [] (versionSources "\x7b\"vulcan\":null,\"watson\":null\x7d") = .ok l ∧
      Config.hasOwnFields l.merged = true ∧ l.extract RouterSettings.form = .ok s ∧
      ∀ s', l.extract ReplaySettings.form ≠ .ok s') ∧
    ∃ l s', Layers.load [] (versionSources "\x7b\"vulcan\":\x7b\x7d\x7d") = .ok l ∧
      Config.hasOwnFields l.merged = true ∧ l.extract ReplaySettings.form = .ok s' ∧
      ∀ s, l.extract RouterSettings.form ≠ .ok s := by
  constructor
  · exact exists_extract_ne RouterSettings.form ReplaySettings.form (by decide +kernel)
  · exact exists_extract_ne ReplaySettings.form RouterSettings.form (by decide +kernel)

end IndexFeed
