import IndexFeed.Proofs.Json.Canonical
import IndexFeed.Proofs.Json.Spelling
import Mathlib.Data.List.Perm.Basic

/-!
# Members in another order

A canonical object does not show in which order its members came, if their names differ
(`canonicalMembers_eq_of_perm`). So trees that differ in the order of members alone, at any depth,
come to the same canonical value (`Rearranged.canonical?_eq`).
-/

namespace IndexFeed.Json

/-- Members of one name whose values are related. -/
inductive OnMember (R : Tree → Tree → Prop) : String × Tree → String × Tree → Prop
  | mk {name : String} {v v' : Tree} (h : R v v') : OnMember R (name, v) (name, v')

/-- **Trees that differ in the order of members alone**: wherever there is an object, its members,
whose names all differ, may come in another order. Numbers may be written differently if they are
read alike. -/
inductive Rearranged : Tree → Tree → Prop
  | null : Rearranged .null .null
  | bool (b : Bool) : Rearranged (.bool b) (.bool b)
  | number {ds ds' : Text.Bytes} (h : (parse ds).toOption = (parse ds').toOption) :
    Rearranged (.number ds) (.number ds')
  | text (s : String) : Rearranged (.text s) (.text s)
  | array {items items' : List Tree} (h : List.Forall₂ Rearranged items items') :
    Rearranged (.array items) (.array items')
  | object {members members' members'' : List (String × Tree)}
      (hnames : (members.map Prod.fst).Nodup)
      (h : List.Forall₂ (OnMember Rearranged) members members')
      (hperm : members'.Perm members'') : Rearranged (.object members) (.object members'')

/-! ### Canonical members -/

namespace Value

theorem addOlder_perm {name : String} {v : Value} {ms : Members} (h : ∀ m ∈ ms, m.1 ≠ name) :
    (Members.addOlder name v ms).Perm ((name, v) :: ms) := by
  induction ms with
  | nil => exact .refl _
  | cons m ms ih =>
    obtain ⟨hm, hms⟩ := List.forall_mem_cons.1 h
    unfold Members.addOlder
    split
    · exact .refl _
    · rw [if_neg (Ne.symm hm)]
      exact ((ih hms).cons m).trans (.swap _ _ ms)

/-- Members whose names differ are all kept. -/
theorem canonicalMembers_perm {ms : Members} (h : (ms.map (·.1)).Nodup) :
    (canonicalMembers ms).Perm (ms.map fun m => (m.1, m.2.canonical)) := by
  induction ms with
  | nil => exact .refl _
  | cons m ms ih =>
    obtain ⟨hm, hms⟩ := List.nodup_cons.1 h
    have hother : ∀ m' ∈ canonicalMembers ms, m'.1 ≠ m.1 := by
      intro m' hm' heq
      obtain ⟨m'', hmem, rfl⟩ := mem_canonicalMembers hm'
      exact hm (List.mem_map.2 ⟨m'', hmem, heq⟩)
    rw [canonicalMembers, List.map_cons]
    exact (addOlder_perm hother).trans ((ih hms).cons _)

/-- **Canonical members do not show the order** of the members, if their names differ. -/
theorem canonicalMembers_eq_of_perm {ms ms' : Members} (h : (ms.map (·.1)).Nodup)
    (hperm : (ms.map fun m => (m.1, m.2.canonical)).Perm
      (ms'.map fun m => (m.1, m.2.canonical))) :
    canonicalMembers ms = canonicalMembers ms' := by
  have hnames : ∀ ms : Members,
      (ms.map fun m => (m.1, m.2.canonical)).map (·.1) = ms.map (·.1) := by
    intro ms
    rw [List.map_map]
    rfl
  have h' : (ms'.map (·.1)).Nodup := by
    rw [← hnames] at h ⊢
    exact (hperm.map (·.1)).nodup_iff.1 h
  have hsame := (canonicalMembers_perm h).trans (hperm.trans (canonicalMembers_perm h').symm)
  refine hsame.eq_of_pairwise (fun m m' _ _ hlt hgt => ?_) (sorted_canonicalMembers ms)
    (sorted_canonicalMembers ms')
  exact absurd hgt (lt_asymm hlt)

theorem canonicalMembers_map_canonical (ms : Members) :
    canonicalMembers (ms.map fun m => (m.1, m.2.canonical)) = canonicalMembers ms := by
  induction ms with
  | nil => rfl
  | cons m ms ih =>
    rw [List.map_cons, canonicalMembers, canonicalMembers, ih, canonical_canonical]

end Value

/-! ### Values that may not be held -/

namespace Tree

variable {α β γ : Type} {f : α → Option β}

theorem mapM_eq_some {xs : List α} {ys : List β} :
    xs.mapM f = some ys ↔ List.Forall₂ (fun x y => f x = some y) xs ys := by
  induction xs generalizing ys with
  | nil => simp [eq_comm]
  | cons x xs ih =>
    rw [mapM_cons, Option.bind_eq_some_iff, List.forall₂_cons_left_iff]
    constructor
    · rintro ⟨y, hy, htail⟩
      obtain ⟨ys, hys, rfl⟩ := Option.map_eq_some_iff.1 htail
      exact ⟨y, ys, hy, ih.1 hys, rfl⟩
    · rintro ⟨y, ys, hy, hys, rfl⟩
      exact ⟨y, hy, Option.map_eq_some_iff.2 ⟨ys, ih.2 hys, rfl⟩⟩

theorem mapM_congr {f' : α → Option β} {xs xs' : List α}
    (h : List.Forall₂ (fun x x' => f x = f' x') xs xs') : xs.mapM f = xs'.mapM f' := by
  induction h with
  | nil => rfl
  | cons hx _ ih => rw [mapM_cons, mapM_cons, hx, ih]

theorem map_mapM (g : β → γ) (xs : List α) :
    (xs.mapM f).map (List.map g) = xs.mapM fun x => (f x).map g := by
  induction xs with
  | nil => rfl
  | cons x xs ih =>
    rw [mapM_cons, mapM_cons, ← ih]
    cases f x with
    | none => rfl
    | some y => cases xs.mapM f <;> rfl

/-- What is made of all results does not show their order if it is the same for permuted ones. -/
theorem map_mapM_of_perm {F : List β → γ} {xs xs' : List α} (hperm : xs.Perm xs')
    (hF : ∀ ys ys', xs.mapM f = some ys → ys.Perm ys' → F ys = F ys') :
    (xs.mapM f).map F = (xs'.mapM f).map F := by
  cases hxs : xs.mapM f with
  | some ys =>
    obtain ⟨ys', hys', hsame⟩ := List.perm_comp_forall₂ hperm.symm (mapM_eq_some.1 hxs)
    rw [mapM_eq_some.2 hys', Option.map_some, Option.map_some, hF ys ys' hxs hsame.symm]
  | none => cases hxs' : xs'.mapM f with
    | none => rfl
    | some ys' =>
      obtain ⟨ys, hys, -⟩ := List.perm_comp_forall₂ hperm (mapM_eq_some.1 hxs')
      rw [mapM_eq_some.2 hys] at hxs
      cases hxs

/-! ### Trees -/

/-- The canonical form of the value that is held for a tree. -/
def canonical? (depth : Nat) (v : Tree) : Option Value := (v.value? depth).map Value.canonical

theorem canonical?_array (depth : Nat) (items : List Tree) :
    (array items).canonical? (depth + 1) = (items.mapM (canonical? depth)).map .array := by
  have hitems : items.mapM (canonical? depth) =
      (items.mapM (value? depth)).map (List.map Value.canonical) :=
    (map_mapM Value.canonical items).symm
  rw [canonical?, value?, hitems, Option.map_map, Option.map_map]
  refine congrArg (Option.map · _) (funext fun vs => ?_)
  rw [Function.comp_apply, Value.canonical, Value.canonicalItems_eq]
  rfl

theorem canonical?_object (depth : Nat) (members : List (String × Tree)) :
    (object members).canonical? (depth + 1) =
      (members.mapM fun m : String × Tree => (m.2.canonical? depth).map (m.1, ·)).map
        fun ms => .object (Value.canonicalMembers ms) := by
  have hmembers : (members.mapM fun m : String × Tree => (m.2.canonical? depth).map (m.1, ·)) =
      (members.mapM fun m : String × Tree => (m.2.value? depth).map (m.1, ·)).map
        (List.map fun m => (m.1, m.2.canonical)) := by
    rw [map_mapM]
    refine congrArg members.mapM (funext fun m => ?_)
    rw [canonical?, Option.map_map, Option.map_map]
    rfl
  rw [canonical?, value?, hmembers, Option.map_map, Option.map_map]
  refine congrArg (Option.map · _) (funext fun ms => ?_)
  rw [Function.comp_apply, Value.canonical, Function.comp_apply,
    Value.canonicalMembers_map_canonical]

end Tree

/-! ### Rearranged trees -/

theorem map_fst_of_forall₂ {α β γ : Type} {R : α × β → α × γ → Prop}
    (hR : ∀ m m', R m m' → m.1 = m'.1) {ms : List (α × β)} {ms' : List (α × γ)}
    (h : List.Forall₂ R ms ms') : ms.map (·.1) = ms'.map (·.1) := by
  induction h with
  | nil => rfl
  | cons hm _ ih => rw [List.map_cons, List.map_cons, hR _ _ hm, ih]

/-- **Rearranged trees come to the same canonical value**, or no value is held for either. -/
theorem Rearranged.canonical?_eq {v v' : Tree} (h : Rearranged v v') (depth : Nat) :
    v.canonical? depth = v'.canonical? depth := by
  induction depth using Nat.strongRecOn generalizing v v' with
  | _ depth ih =>
    cases h with
    | null => rfl
    | bool b => rfl
    | number h => rw [Tree.canonical?, Tree.canonical?, Tree.value?, Tree.value?, h]
    | text s => rfl
    | array h => cases depth with
      | zero => rfl
      | succ depth =>
        have hitems := Tree.mapM_congr (h.imp fun _ _ hv => ih depth (Nat.lt_succ_self _) hv)
        rw [Tree.canonical?_array, Tree.canonical?_array, hitems]
    | object hnames h hperm => cases depth with
      | zero => rfl
      | succ depth =>
        have hmembers := Tree.mapM_congr (h.imp fun m m' hm =>
          show (m.2.canonical? depth).map (m.1, ·) = (m'.2.canonical? depth).map (m'.1, ·) by
            obtain ⟨hv⟩ := hm
            rw [ih depth (Nat.lt_succ_self _) hv])
        rw [map_fst_of_forall₂ (fun m m' hm => by cases hm; rfl) h] at hnames
        rw [Tree.canonical?_object, Tree.canonical?_object, hmembers]
        refine Tree.map_mapM_of_perm hperm fun ms ms' hms hsame => ?_
        have hkept := map_fst_of_forall₂ (fun m m' hm => ?_) (Tree.mapM_eq_some.1 hms)
        · rw [hkept] at hnames
          rw [Value.canonicalMembers_eq_of_perm hnames (hsame.map _)]
        · obtain ⟨v, -, rfl⟩ := Option.map_eq_some_iff.1 hm
          rfl

end IndexFeed.Json
