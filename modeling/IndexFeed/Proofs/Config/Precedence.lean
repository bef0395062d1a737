import IndexFeed.Proofs.Config.Sources
import Mathlib.Data.List.DropRight

/-!
# Which source prevails

What a path leads to in a merged configuration is settled by the sources that touch it, each over
those before it (`find?_foldl_mergeEntries`). So a scalar of the last of them prevails with nothing
of any other, and what a single one holds is there unchanged. Sequences are joined: where the last
sources that touch a path all hold sequences there, the configuration holds the items of these
sources, oldest first (`sequenceOf?_foldl_overlay`), and nothing from before them (`precedence`).
-/

namespace IndexFeed.Config

open Schema (Datum)

/-- The items, if there is a datum and it is a sequence. -/
def sequenceOf? : Option Datum → Option (List Datum)
  | some (.sequence items) => some items
  | _ => none

def Path.items? (P : Path) (d : Datum) : Option (List Datum) := sequenceOf? (Path.find? P d)

/-- The dictionaries of sources that touch a path, in the order of the sources. -/
def touching (env : Environment) (sources : List Source) (P : Path) : List Datum :=
  ((sources.filterMap (·.dictionary? env)).map Datum.mapping).filter (Path.Touches P ·)

/-! ### One layer over another -/

section Overlay

variable {before : Option Datum} {d : Datum}

theorem overlay_of_isScalar (h : isScalar d = true) :
    overlay .join before (some d) = some d := by
  cases before with
  | none => rfl
  | some old => exact congrArg some (merge_of_isScalar h)

/-- Only a sequence makes a sequence, and only of a sequence it keeps the items. -/
theorem sequenceOf?_overlay (before found : Option Datum) :
    sequenceOf? (overlay .join before found) =
      (sequenceOf? found).map fun items => (sequenceOf? before).getD [] ++ items := by
  cases found with
  | none => rfl
  | some d => cases before with
    | none => cases d <;> rfl
    | some old => cases d <;> cases old <;> rfl

theorem overlay_start {es : Entries} (h : Tidy (.mapping es)) {P : Path} {v : Datum}
    (hv : Path.find? P (.mapping es) = some v) :
    overlay .join (Path.find? P (.mapping [])) (some v) = some v := by
  cases P with
  | nil =>
    cases hv
    exact congrArg (fun es => some (Datum.mapping es)) (mergeEntries_nil .join h.sorted)
  | cons name P => rfl

end Overlay

/-! ### Layer after layer -/

section Layers

variable (P : Path)

theorem find?_foldl_mergeEntries {layers : List Entries} (h : ∀ es ∈ layers, Tidy (.mapping es))
    (start : Entries) :
    Path.find? P (.mapping (layers.foldl (mergeEntries .join) start)) =
      ((layers.map Datum.mapping).filter (Path.Touches P ·)).foldl
        (fun before d => overlay .join before (Path.find? P d))
        (Path.find? P (.mapping start)) := by
  induction layers generalizing start with
  | nil => rfl
  | cons es layers ih =>
    obtain ⟨hes, hlayers⟩ := List.forall_mem_cons.1 h
    have hmerge : Path.find? P (.mapping (mergeEntries .join start es)) =
        if Path.Touches P (.mapping es) then
          overlay .join (Path.find? P (.mapping start)) (Path.find? P (.mapping es))
        else Path.find? P (.mapping start) := find?_merge hes P (.mapping start)
    rw [List.foldl_cons, ih hlayers, List.map_cons]
    by_cases htouches : Path.Touches P (.mapping es)
    · rw [hmerge, if_pos htouches, List.filter_cons_of_pos (by simpa using htouches),
        List.foldl_cons]
    · rw [hmerge, if_neg htouches, List.filter_cons_of_neg (by simpa using htouches)]

/-- **Sequences that stand last are joined**, and what was before them is gone. -/
theorem sequenceOf?_foldl_overlay {start : Option Datum} (hstart : sequenceOf? start = none)
    (ds : List Datum) :
    let run := ds.rtakeWhile fun d => (Path.items? P d).isSome
    sequenceOf? (ds.foldl (fun before d => overlay .join before (Path.find? P d)) start) =
      if run = [] then none else some (run.flatMap fun d => (Path.items? P d).getD []) := by
  induction ds using List.reverseRecOn with
  | nil => exact hstart
  | append_singleton ds d ih =>
    simp only at ih ⊢
    rw [List.foldl_append, List.foldl_cons, List.foldl_nil, sequenceOf?_overlay, ih,
      List.rtakeWhile_concat]
    cases hitems : Path.items? P d with
    | none =>
      have hnone : sequenceOf? (Path.find? P d) = none := hitems
      simp [hnone]
    | some items =>
      have hsome : sequenceOf? (Path.find? P d) = some items := hitems
      rw [hsome]
      split
      · next hrun => simp [hrun, hitems]
      · next hrun => simp [hitems]

end Layers

/-- **Precedence.** Let sources be loaded, and consider those that touch a path. If the last of them
holds a scalar there, so does the configuration. If it holds a sequence, the configuration holds the
items of all sources, oldest first, from the last one back to where one holds no sequence there. If
there is but one and it holds anything there, the configuration holds just that. -/
theorem precedence {env : Environment} {sources : List Source} {l : Layers}
    (h : Layers.load env sources = .ok l) (P : Path) :
    (∀ d v, (touching env sources P).getLast? = some d → Path.find? P d = some v →
      isScalar v = true → Path.find? P (.mapping l.merged) = some v) ∧
      (∀ d, (touching env sources P).getLast? = some d → (Path.items? P d).isSome = true →
        Path.items? P (.mapping l.merged) =
          some (((touching env sources P).rtakeWhile fun d => (Path.items? P d).isSome).flatMap
            fun d => (Path.items? P d).getD [])) ∧
      ∀ d v, touching env sources P = [d] → Path.find? P d = some v →
        Path.find? P (.mapping l.merged) = some v := by
  have htidy : ∀ es ∈ l.entries, Tidy (.mapping es) := fun es hes =>
    Layers.tidy_of_mem_entries h hes
  -- at one path, merging is a fold over the sources that touch it
  have hmerged : Path.find? P (.mapping l.merged) = (touching env sources P).foldl
      (fun before d => overlay .join before (Path.find? P d)) (Path.find? P (.mapping [])) := by
    rw [Layers.merged, find?_foldl_mergeEntries P htidy, Layers.entries_load h]
    rfl
  refine ⟨fun d v hlast hv hscalar => ?_, fun d hlast hitems => ?_, fun d v honly hv => ?_⟩
  · obtain ⟨ds, hds⟩ := List.getLast?_eq_some_iff.1 hlast
    rw [hmerged, hds, List.foldl_append, List.foldl_cons, List.foldl_nil, hv,
      overlay_of_isScalar hscalar]
  · obtain ⟨ds, hds⟩ := List.getLast?_eq_some_iff.1 hlast
    have hstart : sequenceOf? (Path.find? P (.mapping [])) = none := by cases P <;> rfl
    have hrun : (touching env sources P).rtakeWhile (fun d => (Path.items? P d).isSome) ≠ [] := by
      rw [hds, List.rtakeWhile_concat, if_pos hitems]
      exact List.concat_ne_nil _ _
    rw [Path.items?, hmerged, sequenceOf?_foldl_overlay P hstart, if_neg hrun]
  · have hd : d ∈ touching env sources P := by rw [honly]; exact List.mem_singleton_self d
    obtain ⟨es, hes, rfl⟩ := List.mem_map.1 (List.mem_of_mem_filter hd)
    rw [← Layers.entries_load h] at hes
    rw [hmerged, honly, List.foldl_cons, List.foldl_nil, hv, overlay_start (htidy es hes) hv]

/-- Two files and the environment over them. -/
def layeredSources : List Source :=
  [jsonFile "\x7b\"a\":\x7b\"b\":[1]\x7d,\"c\":[0]\x7d",
    jsonFile "\x7b\"a\":\x7b\"b\":[2]\x7d,\"e\":null\x7d", .environment "dp"]

/-- Variables that set a list and a number. -/
def layeredEnvironment : Environment := [("DP_A__B", "[3]"), ("DP_C", "7")]

/-- Two files that hold a list under one name. -/
def listSources : List Source :=
  [jsonFile "\x7b\"a\":[1]\x7d", jsonFile "\x7b\"a\":[2]\x7d"]

def numbers? (ds : List Datum) : Option (List Nat) :=
  ds.mapM fun
    | .unsigned n => some n
    | _ => none

theorem eq_of_numbers? {ds : List Datum} {ns : List Nat} (h : numbers? ds = some ns) :
    ds = ns.map Datum.unsigned := by
  induction ds generalizing ns with
  | nil =>
    cases h
    rfl
  | cons d ds ih =>
    rw [numbers?, List.mapM_cons] at h
    obtain ⟨n, hn, h⟩ := Option.bind_eq_some_iff.1 h
    obtain ⟨ns', hns, h⟩ := Option.bind_eq_some_iff.1 h
    cases h
    cases d <;> cases hn
    exact congrArg (Datum.unsigned n :: ·) (ih hns)

theorem items?_of_numbers? {P : Path} {d : Datum} {ns : List Nat}
    (h : (Path.items? P d).bind numbers? = some ns) :
    Path.find? P d = some (.sequence (ns.map Datum.unsigned)) := by
  obtain ⟨items, hitems, hns⟩ := Option.bind_eq_some_iff.1 h
  unfold Path.items? sequenceOf? at hitems
  split at hitems
  · next hfind =>
    cases hitems
    rw [hfind, eq_of_numbers? hns]
  · cases hitems

/-- A number goes over a list, and three lists are joined. -/
theorem precedence_layered :
    ∃ l, Layers.load layeredEnvironment layeredSources = .ok l ∧
      Path.find? ["c"] (.mapping l.merged) = some (.unsigned 7) ∧
      Path.find? ["a", "b"] (.mapping l.merged) =
        some (.sequence [.unsigned 1, .unsigned 2, .unsigned 3]) := by
  have hloads : (Layers.load layeredEnvironment layeredSources).isOk = true := by decide +kernel
  cases hload : Layers.load layeredEnvironment layeredSources with
  | error e =>
    rw [hload] at hloads
    cases hloads
  | ok l =>
    refine ⟨l, rfl, ?_, ?_⟩
    · have hlast : (touching layeredEnvironment layeredSources ["c"]).getLast?.bind
          (fun d => (Path.find? ["c"] d).bind fun v => numbers? [v]) = some [7] := by
        decide +kernel
      obtain ⟨d, hd, hnumber⟩ := Option.bind_eq_some_iff.1 hlast
      obtain ⟨v, hv, hseven⟩ := Option.bind_eq_some_iff.1 hnumber
      obtain rfl : v = .unsigned 7 := List.singleton_inj.1 (eq_of_numbers? hseven)
      exact (precedence hload ["c"]).1 d _ hd hv rfl
    · have hlast : (touching layeredEnvironment layeredSources ["a", "b"]).getLast?.any
          (fun d => (Path.items? ["a", "b"] d).isSome) = true := by
        decide +kernel
      obtain ⟨d, hd, hitems⟩ := (Option.any_eq_true _ _).1 hlast
      have hnumbers :
          (Path.items? ["a", "b"] (.mapping l.merged)).bind numbers? = some [1, 2, 3] := by
        rw [(precedence hload ["a", "b"]).2.1 d hd hitems]
        decide +kernel
      exact items?_of_numbers? hnumbers

/-- A list of a later source does not do away with that of an earlier one. -/
theorem sequence_not_replaced :
    ∃ l d, Layers.load [] listSources = .ok l ∧ (touching [] listSources ["a"]).getLast? = some d ∧
      Path.find? ["a"] d = some (.sequence [.unsigned 2]) ∧
      Path.find? ["a"] (.mapping l.merged) = some (.sequence [.unsigned 1, .unsigned 2]) ∧
      Path.find? ["a"] (.mapping l.merged) ≠ some (.sequence [.unsigned 2]) := by
  have hmerged : (Layers.load [] listSources).toOption.bind (fun l =>
      (Path.items? ["a"] (.mapping l.merged)).bind numbers?) = some [1, 2] := by
    decide +kernel
  have hlast : (touching [] listSources ["a"]).getLast?.bind
      (fun d => (Path.items? ["a"] d).bind numbers?) = some [2] := by
    decide +kernel
  obtain ⟨l, hload, hboth⟩ := Option.bind_eq_some_iff.1 hmerged
  obtain ⟨d, hd, hlater⟩ := Option.bind_eq_some_iff.1 hlast
  have hfind := items?_of_numbers? hboth
  refine ⟨l, d, ?_, hd, items?_of_numbers? hlater, hfind, fun h => ?_⟩
  · unfold Except.toOption at hload
    split at hload <;> cases hload
    assumption
  · injection hfind.symm.trans h with h
    injection h with h
    injection h with h
    cases h

end IndexFeed.Config
