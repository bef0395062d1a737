import IndexFeed.Proofs.Replay.RouterPart
import IndexFeed.Proofs.Schema.Misfits

/-!
# Values of a wrong type

What a configuration is wanted for is a router, a replay or a ring of endpoints. An error of a wrong
type is about a value that stands in the merged configuration, says what it is, and wants something
that it is not. Its path leads to that value, with one exception: within the router of a replay, no
part of the place is told (`Target.wrong_type_names`).
-/

namespace IndexFeed

open Config (ConfigError Entries Layers)
open Schema (Datum Form Found Misfit Offends Reading Stands)

/-! ### Definitions -/

/-- What a configuration is wanted for. -/
inductive Target where
  | router
  | replay
  | topology
  deriving DecidableEq, Repr

namespace Target

def Value : Target → Type
  | router => RouterSettings
  | replay => ReplaySettings
  | topology => Ring

def form : (t : Target) → Form t.Value
  | router => RouterSettings.form
  | replay => ReplaySettings.form
  | topology => Ring.form

end Target

/-- A value that stands in `d` at a place is what the words of an error are about. -/
def Config.Names (r : Reading) (d : Datum) (place : List String) (expected found : String) : Prop :=
  ∃ v what, Stands v place d ∧ found = Found.configurationText what ∧ Offends r v what expected

namespace Config

variable {r : Reading} {d : Datum} {place : List String} {expected found : String}

theorem names_of_sound {m : Misfit} {N front : List String} (h : m.Sound N r front d)
    {what : Found} (hfault : m.fault = .wrongType what expected) :
    ∃ place, Names r d place expected what.configurationText ∧
      m.path = r.shown (front ++ place) := by
  obtain ⟨place, v, hstands, hoffends, hpath⟩ := h.wrongType _ _ hfault
  exact ⟨place, ⟨v, what, hstands, rfl, hoffends⟩, hpath⟩

theorem Names.entry {entries : Entries} {name : String} (hmem : (name, d) ∈ entries)
    (h : Names r d place expected found) :
    Names r (.mapping entries) (name :: place) expected found := by
  obtain ⟨v, what, hstands, hfound, hoffends⟩ := h
  exact ⟨v, what, .entry hmem hstands, hfound, hoffends⟩

theorem Layers.exists_misfit {α : Type} {l : Layers} {form : Form α} {path : Path}
    (h : l.extract form = .error (.wrongType path expected found)) :
    ∃ m what, form.ofDatum .configuration (.mapping l.merged) = .error m ∧
      m.fault = .wrongType what expected ∧ m.path = path ∧ found = what.configurationText := by
  unfold extract at h
  split at h
  · cases h
  · next m hm =>
    injection h with h
    unfold errorOf at h
    split at h
    · cases h
    · next what expected' hfault =>
      cases h
      exact ⟨m, what, hm, hfault, rfl, rfl⟩
    · cases h

end Config

/-- **A wrong type names the value.** If the settings that are wanted are refused for a wrong type,
the path of the error leads to a value of the merged configuration which is what the error says
and not what it wants. Only if a replay is wanted, and the value stands within an entry of its
router, is the path empty instead. -/
theorem Target.wrong_type_names (t : Target) (l : Layers) {path : Config.Path}
    {expected found : String}
    (h : l.extract t.form = .error (.wrongType path expected found)) :
    Config.Names .configuration (.mapping l.merged) path expected found ∨
      t = .replay ∧ path = [] ∧ ∃ name ∈ ["definition", "feed_version", "unknown_opcodes"], ∃ place,
        Config.Names .leftOver (.mapping l.merged) (name :: place) expected found := by
  obtain ⟨m, what, hm, hfault, rfl, rfl⟩ := Layers.exists_misfit h
  have hnames : ∀ {N}, m.Sound N .configuration [] (.mapping l.merged) →
      Config.Names .configuration (.mapping l.merged) m.path expected what.configurationText := by
    intro N hsound
    obtain ⟨place, hplace, hpath⟩ := Config.names_of_sound hsound hfault
    rw [hpath]
    exact hplace
  cases t with
  | router => exact .inl (hnames (RouterSettings.form.sound rfl (List.Subset.refl _) _ m hm))
  | topology => exact .inl (hnames (Ring.form.sound rfl (List.Subset.refl _) _ m hm))
  | replay =>
    rcases Schema.overlay_misfit rfl (by decide) hm with
      ⟨e, he, hsound⟩ | ⟨missing, -, rfl, -⟩ | hrouter
    · obtain ⟨place, hplace, hpath⟩ := Config.names_of_sound hsound hfault
      rw [hpath]
      exact .inl (hplace.entry he)
    · cases hfault
    · rcases Schema.record_misfit rfl (by decide) hrouter with
        ⟨e, he, hfield, hsound⟩ | ⟨missing, -, rfl, -⟩
      · obtain ⟨place, hplace, hpath⟩ := Config.names_of_sound hsound hfault
        exact .inr ⟨rfl, hpath, e.1, Schema.Fields.has_iff.1 hfield, place,
          hplace.entry (List.mem_of_mem_filter he)⟩
      · cases hfault

/-- A file whose definition has a number for its source. -/
def numberedSource : List Config.Source :=
  [Config.jsonFile
    "\x7b\"definition\":\x7b\"source\":5,\"instance_id\":3\x7d,\"key_fields\":[\"a\"]\x7d"]

/-- What an error of a wrong type says, if a result is one. -/
def Config.wrongType? {α : Type} : Except ConfigError α → Option (Path × String × String)
  | .error (.wrongType path expected found) => some (path, expected, found)
  | _ => none

theorem Config.eq_of_wrongType? {α : Type} {x : Except ConfigError α} {path : Path}
    {expected found : String} (h : wrongType? x = some (path, expected, found)) :
    x = .error (.wrongType path expected found) := by
  unfold wrongType? at h
  split at h
  · cases h
    rfl
  · cases h

/-- The source of a definition is named to a router. -/
theorem Target.wrong_type_names_source :
    ∃ l, Layers.load [] numberedSource = .ok l ∧
      l.extract Target.router.form =
        .error (.wrongType ["definition", "source"] "a string" "unsigned int `5`") ∧
      Config.Names .configuration (.mapping l.merged) ["definition", "source"] "a string"
        "unsigned int `5`" := by
  have hload : (Layers.load [] numberedSource).toOption.any (fun l =>
      Config.wrongType? (l.extract Target.router.form) =
        some (["definition", "source"], "a string", "unsigned int `5`")) = true := by
    decide +kernel
  obtain ⟨l, hl, hwrong⟩ := exists_of_any_toOption hload
  have herror := Config.eq_of_wrongType? (of_decide_eq_true hwrong)
  refine ⟨l, hl, herror, ?_⟩
  rcases Target.router.wrong_type_names l herror with hnames | ⟨hreplay, -⟩
  · exact hnames
  · cases hreplay

/-- To a replay it is not: the path is that of the whole configuration, which is no number. -/
theorem Target.replay_names_nothing :
    ∃ l, Layers.load [] numberedSource = .ok l ∧
      l.extract Target.replay.form = .error (.wrongType [] "a string" "unsigned int `5`") ∧
      ∀ r, ¬ Config.Names r (.mapping l.merged) [] "a string" "unsigned int `5`" := by
  have hload : (Layers.load [] numberedSource).toOption.any (fun l =>
      Config.wrongType? (l.extract Target.replay.form) =
        some ([], "a string", "unsigned int `5`")) = true := by
    decide +kernel
  obtain ⟨l, hl, hwrong⟩ := exists_of_any_toOption hload
  refine ⟨l, hl, Config.eq_of_wrongType? (of_decide_eq_true hwrong), ?_⟩
  rintro r ⟨v, what, hstands, hfound, hoffends⟩
  cases hstands
  have hmap : what = .mapping := by
    rcases hoffends.found_eq with h | h
    · cases r <;> exact h
    · exact h
  rw [hmap] at hfound
  exact absurd hfound (by decide)

end IndexFeed
