import IndexFeed.Config.Layers
import IndexFeed.Proofs.Config.Merge

/-!
# What sources hold

Whatever a source is written in, the entries that are read from it are tidy
(`Source.tidy_dictionary?`): files sort the entries of each mapping and keep the last one of a name,
and variables are merged into what is tidy already. So the layers of sources are their
dictionaries, one for each source that holds one (`Layers.entries_load`), and all of them are tidy.
-/

namespace IndexFeed.Config

open Schema (Datum)
open Text (Bytes)

/-- The entries of a source, if it can be read. -/
def Source.dictionary? (env : Environment) : Source → Option Entries
  | .file format _ content => content.bind format.read?
  | .environment p => some (Environment.entries (Environment.normalPrefix p) env)

/-! ### Tidy mappings -/

section Mappings

variable {es : Entries} {name : String} {d : Datum}

theorem Entries.get?_of_mem (h : Entries.Sorted es) {e : String × Datum} (he : e ∈ es) :
    es.get? e.1 = some e.2 := by
  induction es with
  | nil => cases he
  | cons e' es ih =>
    obtain ⟨hlt, hes⟩ := List.pairwise_cons.1 h
    rw [Entries.get?_cons]
    rcases List.mem_cons.1 he with rfl | he
    · rw [if_pos rfl]
    · rw [if_neg (hlt e he).ne', ih hes he]

theorem Entries.ext_of_sorted {es' : Entries} (h : Entries.Sorted es) (h' : Entries.Sorted es')
    (hget : ∀ n, es.get? n = es'.get? n) : es = es' := by
  have hmem : ∀ e, e ∈ es ↔ e ∈ es' := by
    intro e
    constructor
    · intro he
      exact mem_of_get? ((hget e.1).symm.trans (get?_of_mem h he))
    · intro he
      exact mem_of_get? ((hget e.1).trans (get?_of_mem h' he))
  have hnodup : ∀ {es : Entries}, Sorted es → es.Nodup :=
    fun h => h.imp fun hlt heq => hlt.ne (congrArg Prod.fst heq)
  exact ((List.perm_ext_iff_of_nodup (hnodup h) (hnodup h')).2 hmem).eq_of_pairwise
    (fun _ _ _ _ hlt hgt => absurd hgt (lt_asymm hlt)) h h'

theorem Tidy.of_mem (h : Tidy (.mapping es)) {e : String × Datum} (he : e ∈ es) : Tidy e.2 :=
  h.get? (Entries.get?_of_mem h.sorted he)

theorem tidy_nil : Tidy (.mapping []) := tidy_mapping .nil nofun

theorem tidy_put (h : Tidy (.mapping es)) (name : String) (hd : Tidy d) :
    Tidy (.mapping (Entries.put name d es)) := by
  refine tidy_mapping (Entries.sorted_put name d h.sorted) fun e he => ?_
  rcases Entries.mem_of_mem_put he with rfl | he
  · exact hd
  · exact h.of_mem he

theorem tidy_ofWritten {written : List (String × Datum)} (h : ∀ e ∈ written, Tidy e.2) :
    Tidy (.mapping (Entries.ofWritten written)) := by
  have hfold : ∀ es : Entries, Tidy (.mapping es) →
      Tidy (.mapping (written.foldl (fun es e => Entries.put e.1 e.2 es) es)) := by
    induction written with
    | nil => exact fun es hes => hes
    | cons e written ih =>
      obtain ⟨he, hwritten⟩ := List.forall_mem_cons.1 h
      exact fun es hes => ih hwritten _ (tidy_put hes e.1 he)
  exact hfold [] tidy_nil

theorem tidy_nest (P : Path) (hd : Tidy d) : Tidy (P.nest d) := by
  induction P with
  | nil => exact hd
  | cons name P ih =>
    exact tidy_mapping (List.pairwise_singleton _ _) (List.forall_mem_singleton.2 ih)

end Mappings

/-! ### Reserved names -/

namespace Reserved

theorem tidy_of_mapping? {written : List (String × Datum)} {d : Datum}
    (h : ∀ e ∈ written, Tidy e.2) (hd : mapping? written = some d) : Tidy d := by
  unfold mapping? at hd
  split at hd
  · split at hd
    · next d' hvalue =>
      cases hd
      exact h _ (List.mem_reverse.1 (Entries.mem_of_get? hvalue))
    · cases hd
      exact tidy_ofWritten fun e he => h e (List.mem_of_mem_filter he)
  · cases hd

mutual

theorem tidy_of_datum? : ∀ {d d' : Datum}, datum? d = some d' → Tidy d'
  | .sequence items, d', h => by
    obtain ⟨items', -, rfl⟩ := Option.map_eq_some_iff.1 h
    exact tidy_of_not_mapping rfl
  | .mapping entries, d', h => by
    obtain ⟨written, hwritten, hd⟩ := Option.bind_eq_some_iff.1 h
    exact tidy_of_mapping? (tidy_of_entries? hwritten) hd
  | .unit, d', h | .flag _, d', h | .unsigned _, d', h | .signed _, d', h | .float _, d', h
  | .char _, d', h | .text _, d', h => by
    cases h
    exact tidy_of_not_mapping rfl

theorem tidy_of_entries? : ∀ {entries written : List (String × Datum)},
    entries? entries = some written → ∀ e ∈ written, Tidy e.2
  | [], written, h => by
    cases h
    exact nofun
  | (name, d) :: rest, written, h => by
    obtain ⟨d', hd, h⟩ := Option.bind_eq_some_iff.1 h
    obtain ⟨rest', hrest, h⟩ := Option.bind_eq_some_iff.1 h
    cases h
    exact List.forall_mem_cons.2 ⟨tidy_of_datum? hd, tidy_of_entries? hrest⟩

end

end Reserved

/-! ### JSON -/

theorem tidy_of_readJson? {bytes : Bytes} {es : Entries}
    (h : FileFormat.readJson? bytes = some es) : Tidy (.mapping es) := by
  unfold FileFormat.readJson? at h
  split at h
  · split at h
    · obtain ⟨written, hwritten, rfl⟩ := Option.map_eq_some_iff.1 h
      exact tidy_ofWritten (Reserved.tidy_of_entries? hwritten)
    · cases h
  · cases h

end IndexFeed.Config

/-! ### YAML -/

namespace IndexFeed.Yaml

open Config (Entries Tidy)
open Schema (Datum)

theorem Following.bind_eq_some {α β : Type} {x : Following α} {f : α → Following β} {n : Nat}
    {out : β × Nat} (h : (x >>= f) n = some out) : ∃ a m, x n = some (a, m) ∧ f a m = some out := by
  obtain ⟨⟨a, m⟩, hx, hf⟩ := Option.bind_eq_some_iff.1 h
  exact ⟨a, m, hx, hf⟩

theorem Following.forall_mem_of_mapM {α β : Type} {f : α → Following β} {Q : β → Prop}
    (hf : ∀ a n b m, f a n = some (b, m) → Q b) {xs : List α} {n m : Nat} {ys : List β}
    (h : xs.mapM f n = some (ys, m)) : ∀ y ∈ ys, Q y := by
  induction xs generalizing n ys with
  | nil =>
    cases h
    exact nofun
  | cons x xs ih =>
    rw [List.mapM_cons] at h
    obtain ⟨y, n₁, hy, h⟩ := bind_eq_some h
    obtain ⟨ys, n₂, hys, h⟩ := bind_eq_some h
    cases h
    exact List.forall_mem_cons.2 ⟨hf _ _ _ _ hy, ih hys⟩

theorem Following.lift_eq_some {α : Type} {x : Option α} {n m : Nat} {a : α}
    (h : (liftM x : Following α) n = some (a, m)) : x = some a := by
  cases x with
  | none => cases h
  | some b =>
    cases h
    rfl

/-! ### Scalars -/

theorem isMapping_of_whole? {cs : List Char} {d : Datum} (h : whole? cs = some d) :
    Config.isMapping d = false := by
  unfold whole? at h
  split at h <;> split at h <;> first | (split at h <;> cases h; rfl) | cases h

theorem isMapping_plainValue (s : String) : Config.isMapping (plainValue s) = false := by
  unfold plainValue
  simp only
  split
  · rfl
  split
  · rfl
  · next d _ hwhole => exact isMapping_of_whole? hwhole
  · split <;> rfl

/-- A scalar is no mapping, whatever type its tag asks for. -/
theorem isMapping_of_scalarValue? {tag : Option Tag} {plain : Bool} {s : String} {d : Datum}
    (h : scalarValue? tag plain s = some d) : Config.isMapping d = false := by
  have huntyped : Config.isMapping (if plain then plainValue s else .text s) = false := by
    split
    · exact isMapping_plainValue s
    · rfl
  unfold scalarValue? at h
  simp only at h
  split at h
  · cases h
    exact huntyped
  split at h
  · obtain ⟨b, -, rfl⟩ := Option.map_eq_some_iff.1 h
    rfl
  split at h
  · exact isMapping_of_whole? h
  split at h
  · obtain ⟨x, -, rfl⟩ := Option.map_eq_some_iff.1 h
    rfl
  split at h
  · split at h <;> cases h
    rfl
  split at h <;> cases h
  · exact huntyped
  · rfl

/-! ### Nodes -/

variable {targets : List (Nat × Node)}

theorem tidy_of_entriesOf {value : Node → Following Datum}
    (hvalue : ∀ v n d m, value v n = some (d, m) → Tidy d) {entries : List (Node × Node)}
    {n m : Nat} {written : List (String × Datum)}
    (h : entriesOf targets value entries n = some (written, m)) : ∀ e ∈ written, Tidy e.2 := by
  refine Following.forall_mem_of_mapM (fun kv n e m he => ?_) h
  obtain ⟨key, n₁, -, he⟩ := Following.bind_eq_some he
  obtain ⟨d, n₂, hd, he⟩ := Following.bind_eq_some he
  cases he
  exact hvalue _ _ _ _ hd

theorem datumOf_zero (node : Node) :
    datumOf targets 0 node = (follow targets node >>= fun
      | .scalar p plain text => do return (pathOf p.tag).nest (← scalarValue? p.tag plain text)
      | _ => failure) := by
  delta datumOf
  refine congrArg (follow targets node >>= ·) (funext fun node => ?_)
  cases node <;> rfl

/-- What stands in a node has one level less. -/
theorem datumOf_succ (levels : Nat) (node : Node) :
    datumOf targets (levels + 1) node = (follow targets node >>= fun
      | .scalar p plain text => do return (pathOf p.tag).nest (← scalarValue? p.tag plain text)
      | .sequence p items => do
        return (pathOf p.tag).nest (.sequence (← items.mapM (datumOf targets levels)))
      | .mapping p entries => do
        let written ← entriesOf targets (datumOf targets levels) entries
        return (pathOf p.tag).nest (← Config.Reserved.mapping? written)
      | .alias _ => failure) := by
  delta datumOf
  refine congrArg (follow targets node >>= ·) (funext fun node => ?_)
  cases node <;> rfl

theorem tidy_of_nested {α : Type} {x : Following α} {P : Config.Path} {make : α → Datum}
    (hx : ∀ a n m, x n = some (a, m) → Tidy (make a)) {n m : Nat} {d : Datum}
    (h : (x >>= fun a => pure (P.nest (make a))) n = some (d, m)) : Tidy d := by
  obtain ⟨a, n₁, ha, h⟩ := Following.bind_eq_some h
  cases h
  exact Config.tidy_nest P (hx _ _ _ ha)

theorem tidy_of_scalar {tag : Option Tag} {plain : Bool} {s : String} {d : Datum} {n m : Nat}
    (h : (liftM (scalarValue? tag plain s) : Following Datum) n = some (d, m)) : Tidy d :=
  Config.tidy_of_not_mapping (isMapping_of_scalarValue? (Following.lift_eq_some h))

/-- **What a node holds is tidy**, by induction on the levels that are left for it. -/
theorem tidy_of_datumOf {levels : Nat} {node : Node} {n : Nat} {d : Datum} {m : Nat}
    (h : datumOf targets levels node n = some (d, m)) : Tidy d := by
  induction levels generalizing node n d m with
  | zero =>
    rw [datumOf_zero] at h
    obtain ⟨node', n₁, -, h⟩ := Following.bind_eq_some h
    cases node' with
    | scalar p plain text => exact tidy_of_nested (fun _ _ _ => tidy_of_scalar) h
    | _ => cases h
  | succ levels ih =>
    rw [datumOf_succ] at h
    obtain ⟨node', n₁, -, h⟩ := Following.bind_eq_some h
    cases node' with
    | scalar p plain text => exact tidy_of_nested (fun _ _ _ => tidy_of_scalar) h
    | sequence p items =>
      exact tidy_of_nested (fun _ _ _ _ => Config.tidy_of_not_mapping rfl) h
    | mapping p entries =>
      obtain ⟨written, n₂, hwritten, h⟩ := Following.bind_eq_some h
      have htidy : ∀ e ∈ written, Tidy e.2 := tidy_of_entriesOf (fun _ _ _ _ => ih) hwritten
      refine tidy_of_nested (fun d _ _ hd => ?_) h
      exact Config.Reserved.tidy_of_mapping? htidy (Following.lift_eq_some hd)
    | _ => cases h

theorem tidy_of_topEntries {root : Node} {es : Entries} (h : topEntries root = some es) :
    Tidy (.mapping es) := by
  unfold topEntries at h
  split at h
  · cases h
    exact Config.tidy_nil
  · obtain ⟨⟨written, m⟩, hwritten, rfl⟩ := Option.map_eq_some_iff.1 h
    exact Config.tidy_ofWritten (tidy_of_entriesOf (fun _ _ _ _ => tidy_of_datumOf) hwritten)
  · cases h

theorem tidy_of_read? {s : String} {es : Entries} (h : read? s = some es) :
    Tidy (.mapping es) := by
  obtain ⟨ts, -, h⟩ := Option.bind_eq_some_iff.1 h
  obtain ⟨root, -, h⟩ := Option.bind_eq_some_iff.1 h
  cases root with
  | none =>
    cases h
    exact Config.tidy_nil
  | some root => exact tidy_of_topEntries h

end IndexFeed.Yaml

/-! ### Variables -/

namespace IndexFeed.Config

open Schema (Datum)

namespace Inline

theorem isMapping_of_wholeNumber? {cs : List Char} {d : Datum} (h : wholeNumber? cs = some d) :
    isMapping d = false := by
  unfold wholeNumber? at h
  split at h
  · split at h <;> split at h <;> cases h <;> rfl
  · cases h

theorem isMapping_bare (cs : List Char) : isMapping (bare cs) = false := by
  unfold bare
  simp only
  cases hfloat : if cs.contains '.' then (Decimal.readFloat? cs).map Datum.float else none with
  | some d =>
    split at hfloat
    · obtain ⟨x, -, rfl⟩ := Option.map_eq_some_iff.1 hfloat
      rfl
    · cases hfloat
  | none =>
    cases hwhole : wholeNumber? cs with
    | some d => exact isMapping_of_wholeNumber? hwhole
    | none => rfl

theorem isMapping_of_scalar? {cs rest : List Char} {d : Datum} (h : scalar? cs = some (d, rest)) :
    isMapping d = false := by
  unfold scalar? at h
  split at h
  · obtain ⟨x, -, hx⟩ := Option.map_eq_some_iff.1 h
    cases hx
    rfl
  · obtain ⟨x, -, hx⟩ := Option.map_eq_some_iff.1 h
    cases hx
    rfl
  · cases h
  · cases h
    exact isMapping_bare _

/-- Values and entries have their names put in order as they are read, by induction on the steps. -/
theorem tidy_of_value? (fuel : Nat) :
    (∀ {cs rest : List Char} {d : Datum}, value? fuel cs = some (d, rest) → Tidy d) ∧
      ∀ {before es : Entries} {cs rest : List Char}, Tidy (.mapping before) →
        entries? fuel before cs = some (es, rest) → Tidy (.mapping es) := by
  -- both at once, by induction on the fuel, for values hold entries and entries hold values
  induction fuel with
  | zero => exact ⟨(nomatch ·), fun _ => (nomatch ·)⟩
  | succ fuel ih =>
    obtain ⟨ihvalue, ihentries⟩ := ih
    constructor
    · intro cs rest d h
      rw [value?] at h
      split at h
      · cases h
        exact tidy_of_not_mapping rfl
      · cases h
        exact tidy_of_not_mapping rfl
      · split at h
        · obtain ⟨_, hitems, h⟩ := Option.bind_eq_some_iff.1 h
          obtain ⟨items, -, rfl⟩ := Option.map_eq_some_iff.1 hitems
          cases h
          exact tidy_of_not_mapping rfl
        · obtain ⟨_, hentries, h⟩ := Option.bind_eq_some_iff.1 h
          obtain ⟨es, hes, rfl⟩ := Option.map_eq_some_iff.1 hentries
          cases h
          exact ihentries tidy_nil hes
        · obtain ⟨_, hscalar, h⟩ := Option.bind_eq_some_iff.1 h
          cases h
          exact tidy_of_not_mapping (isMapping_of_scalar? hscalar)
    · intro before es cs rest hbefore h
      rw [entries?] at h
      split at h
      · cases h
        exact hbefore
      · obtain ⟨⟨name, cs₁⟩, -, h⟩ := Option.bind_eq_some_iff.1 h
        obtain ⟨cs₂, -, h⟩ := Option.bind_eq_some_iff.1 h
        obtain ⟨⟨d, cs₃⟩, hd, h⟩ := Option.bind_eq_some_iff.1 h
        have hput : Tidy (.mapping (Entries.put name d before)) :=
          tidy_put hbefore name (ihvalue hd)
        simp only at h
        split at h
        · exact ihentries hput h
        · obtain ⟨_, -, h⟩ := Option.map_eq_some_iff.1 h
          cases h
          exact hput

theorem tidy_read (s : String) : Tidy (read s) := by
  unfold read
  simp only
  split
  · next d hd => exact (tidy_of_value? _).1 hd
  · exact tidy_of_not_mapping rfl

end Inline

namespace Environment

theorem tidy_entriesOf (p name value : String) : Tidy (.mapping (entriesOf p name value)) := by
  unfold entriesOf
  split
  · next first path _ => exact tidy_nest (first :: path) (Inline.tidy_read value)
  · exact tidy_nil

theorem tidy_entries (p : String) (env : Environment) : Tidy (.mapping (entries p env)) := by
  have hlayers : entries p env =
      (env.map fun entry => entriesOf p entry.1 entry.2).foldl (mergeEntries .replace) [] := by
    rw [List.foldl_map]
    rfl
  rw [hlayers]
  refine tidy_foldl_mergeEntries .replace (fun es hes => ?_) tidy_nil
  obtain ⟨entry, -, rfl⟩ := List.mem_map.1 hes
  exact tidy_entriesOf p entry.1 entry.2

end Environment

/-! ### Sources -/

def jsonFile (text : String) : Source := .file .json true (some (Text.encode text))

theorem Source.tidy_dictionary? {env : Environment} {source : Source} {es : Entries}
    (h : source.dictionary? env = some es) : Tidy (.mapping es) := by
  cases source with
  | file format required content =>
    obtain ⟨bytes, -, h⟩ := Option.bind_eq_some_iff.1 h
    obtain ⟨s, -, h⟩ := Option.bind_eq_some_iff.1 h
    cases format with
    | yaml => exact Yaml.tidy_of_read? h
    | json => exact tidy_of_readJson? h
  | environment p =>
    cases h
    exact Environment.tidy_entries _ env

namespace Layers

theorem entries_add {env : Environment} {l l' : Layers} {source : Source}
    (h : l.add env source = .ok l') :
    l'.entries = l.entries ++ (source.dictionary? env).toList := by
  cases source with
  | file format required content =>
    rw [add] at h
    rw [Source.dictionary?]
    split at h
    · next es hes =>
      cases h
      rw [hes]
      rfl
    · next hnone =>
      rw [hnone]
      split at h <;> cases h
      exact (List.append_nil _).symm
  | environment p =>
    rw [add] at h
    split at h <;> cases h
    rfl

theorem addAll_cons_eq_ok {env : Environment} {l₀ l : Layers} {index : Nat} {source : Source}
    {sources : List Source} : addAll env l₀ index (source :: sources) = .ok l ↔
      ∃ l₁, l₀.add env source = .ok l₁ ∧ addAll env l₁ (index + 1) sources = .ok l := by
  rw [addAll]
  cases l₀.add env source <;> simp

/-- **The layers of sources** are their dictionaries, in order. -/
theorem entries_load {env : Environment} {sources : List Source} {l : Layers}
    (h : load env sources = .ok l) : l.entries = sources.filterMap (·.dictionary? env) := by
  have hall : ∀ (l₀ : Layers) index, addAll env l₀ index sources = .ok l →
      l.entries = l₀.entries ++ sources.filterMap (·.dictionary? env) := by
    clear h
    induction sources with
    | nil =>
      intro l₀ index h
      cases h
      exact (List.append_nil _).symm
    | cons source sources ih =>
      intro l₀ index h
      obtain ⟨l₁, hl₁, h⟩ := addAll_cons_eq_ok.1 h
      rw [ih l₁ _ h, entries_add hl₁, List.append_assoc, List.filterMap_cons]
      cases source.dictionary? env <;> rfl
  exact hall {} 0 h

section Load

variable {env : Environment} {sources : List Source} {l : Layers}

theorem tidy_of_mem_entries (h : load env sources = .ok l) {es : Entries} (hes : es ∈ l.entries) :
    Tidy (.mapping es) := by
  rw [entries_load h] at hes
  obtain ⟨source, -, hsource⟩ := List.mem_filterMap.1 hes
  exact source.tidy_dictionary? hsource

/-- **A merged configuration is tidy.** -/
theorem tidy_merged (h : load env sources = .ok l) : Tidy (.mapping l.merged) :=
  tidy_foldl_mergeEntries .join (fun _ hes => tidy_of_mem_entries h hes) tidy_nil

end Load

end Layers

end IndexFeed.Config
