import IndexFeed.Json.Value
import Mathlib.Data.String.Basic

/-!
# Canonical values

The members of a canonical object are sorted by name (`sorted_canonicalMembers`), and sorted
members stay as they are, so that a canonical value is its own canonical form
(`canonical_canonical`). Members whose names differ are all found again (`find?_canonicalMembers`).
Making a value canonical adds no levels to it (`height_canonical_le`).
-/

namespace IndexFeed.Json

namespace Value

mutual

/-- The levels of arrays and objects in a value. -/
def height : Value → Nat
  | .array items => itemsHeight items + 1
  | .object members => membersHeight members + 1
  | _ => 0

def itemsHeight : List Value → Nat
  | [] => 0
  | v :: rest => max v.height (itemsHeight rest)

def membersHeight : Members → Nat
  | [] => 0
  | (_, v) :: rest => max v.height (membersHeight rest)

end

/-- The names of members, in ascending order, are all different. -/
def Sorted (ms : Members) : Prop := ms.Pairwise fun m m' => m.1 < m'.1

theorem itemsHeight_le {items : List Value} {n : Nat} :
    itemsHeight items ≤ n ↔ ∀ v ∈ items, v.height ≤ n := by
  induction items with
  | nil => simp [itemsHeight]
  | cons v items ih => simp [itemsHeight, ih]

theorem membersHeight_le {ms : Members} {n : Nat} :
    membersHeight ms ≤ n ↔ ∀ m ∈ ms, m.2.height ≤ n := by
  induction ms with
  | nil => simp [membersHeight]
  | cons m ms ih => simp [membersHeight, ih]

/-! ### Sorted members -/

section AddOlder

variable {name : String} {v : Value} {ms : Members}

theorem mem_of_mem_addOlder {m : String × Value} (h : m ∈ Members.addOlder name v ms) :
    m = (name, v) ∨ m ∈ ms := by
  induction ms with
  | nil => exact .inl (List.mem_singleton.1 h)
  | cons m' ms ih =>
    obtain ⟨n, w⟩ := m'
    unfold Members.addOlder at h
    split at h
    · exact List.mem_cons.1 h
    · split at h
      · exact .inr h
      · rcases List.mem_cons.1 h with rfl | h
        · exact .inr List.mem_cons_self
        · exact (ih h).imp_right (List.mem_cons_of_mem _)

theorem sorted_addOlder (h : Sorted ms) : Sorted (Members.addOlder name v ms) := by
  induction ms with
  | nil => exact List.pairwise_singleton _ _
  | cons m' ms ih =>
    obtain ⟨n, w⟩ := m'
    obtain ⟨hn, hms⟩ := List.pairwise_cons.1 h
    unfold Members.addOlder
    split
    · next hlt =>
      refine List.pairwise_cons.2 ⟨fun m hm => ?_, h⟩
      rcases List.mem_cons.1 hm with rfl | hm
      · exact hlt
      · exact lt_trans hlt (hn m hm)
    · next hge =>
      split
      · exact h
      · next hne =>
        refine List.pairwise_cons.2 ⟨fun m hm => ?_, ih hms⟩
        rcases mem_of_mem_addOlder hm with rfl | hm
        · exact lt_of_le_of_ne (not_lt.1 hge) (Ne.symm hne)
        · exact hn m hm

theorem addOlder_of_lt (h : ∀ m ∈ ms, name < m.1) :
    Members.addOlder name v ms = (name, v) :: ms := by
  cases ms with
  | nil => rfl
  | cons m ms => rw [Members.addOlder, if_pos (h m List.mem_cons_self)]

end AddOlder

theorem sorted_canonicalMembers (ms : Members) : Sorted (canonicalMembers ms) := by
  induction ms with
  | nil => exact .nil
  | cons m ms ih =>
    rw [canonicalMembers]
    exact sorted_addOlder ih

theorem canonicalMembers_of_sorted {ms : Members} (h : Sorted ms) :
    canonicalMembers ms = ms.map fun m => (m.1, m.2.canonical) := by
  induction ms with
  | nil => rfl
  | cons m ms ih =>
    obtain ⟨hm, hms⟩ := List.pairwise_cons.1 h
    have hfirst : ∀ m' ∈ ms.map fun m => (m.1, m.2.canonical), m.1 < m'.1 := by
      intro m' hm'
      obtain ⟨m'', hmem, rfl⟩ := List.mem_map.1 hm'
      exact hm m'' hmem
    rw [canonicalMembers, ih hms, addOlder_of_lt hfirst, List.map_cons]

theorem canonicalItems_eq (items : List Value) : canonicalItems items = items.map canonical := by
  induction items with
  | nil => rfl
  | cons v items ih => rw [canonicalItems, ih, List.map_cons]

theorem mem_canonicalMembers {ms : Members} {m : String × Value} (h : m ∈ canonicalMembers ms) :
    ∃ m' ∈ ms, m = (m'.1, m'.2.canonical) := by
  induction ms with
  | nil => cases h
  | cons m' ms ih =>
    rw [canonicalMembers] at h
    rcases mem_of_mem_addOlder h with rfl | h
    · exact ⟨m', List.mem_cons_self, rfl⟩
    · obtain ⟨m'', hmem, heq⟩ := ih h
      exact ⟨m'', List.mem_cons_of_mem _ hmem, heq⟩

/-! ### Members by name -/

theorem find?_cons (m : String × Value) (ms : Members) (name : String) :
    Members.find? (m :: ms) name = if name = m.1 then some m.2 else Members.find? ms name := by
  obtain ⟨n, v⟩ := m
  by_cases h : name = n
  · simp [Members.find?, h]
  · simp [Members.find?, List.lookup_cons, h, beq_eq_false_iff_ne.2 h]

theorem find?_eq_none {ms : Members} {name : String} (h : ∀ m ∈ ms, name ≠ m.1) :
    Members.find? ms name = none := by
  refine List.lookup_eq_none_iff.2 fun m hm => ?_
  simpa using h m hm

theorem find?_of_mem {ms : Members} (h : (ms.map (·.1)).Nodup) {m : String × Value} (hm : m ∈ ms) :
    Members.find? ms m.1 = some m.2 := by
  induction ms with
  | nil => cases hm
  | cons m' ms ih =>
    obtain ⟨hm', hms⟩ := List.nodup_cons.1 h
    rw [find?_cons]
    rcases List.mem_cons.1 hm with rfl | hm
    · rw [if_pos rfl]
    · rw [if_neg fun heq => hm' (List.mem_map.2 ⟨m, hm, heq⟩), ih hms hm]

theorem find?_addOlder {name : String} {v : Value} {ms : Members} (h : Sorted ms) (n : String) :
    (Members.addOlder name v ms).find? n =
      if n = name then some ((ms.find? name).getD v) else ms.find? n := by
  induction ms with
  | nil =>
    rw [Members.addOlder, find?_cons]
    rfl
  | cons m ms ih =>
    obtain ⟨hm, hms⟩ := List.pairwise_cons.1 h
    unfold Members.addOlder
    split
    -- ahead of the first greater name: the name is new
    · next hlt =>
      have hnone : Members.find? (m :: ms) name = none := by
        refine find?_eq_none (List.forall_mem_cons.2 ⟨hlt.ne, fun m' hm' => ?_⟩)
        exact (lt_trans hlt (hm m' hm')).ne
      rw [find?_cons, hnone]
      rfl
    · split
      · next heq =>
        rw [find?_cons, find?_cons, if_pos heq]
        by_cases hn : n = name
        · rw [if_pos hn, if_pos (hn.trans heq)]
          rfl
        · rw [if_neg hn]
      · next hne =>
        rw [find?_cons, ih hms, find?_cons m ms name, if_neg hne, find?_cons]
        by_cases hn : n = m.1
        · rw [if_pos hn, if_neg (fun hname => hne (hname.symm.trans hn)), if_pos hn]
        · rw [if_neg hn, if_neg hn]

/-- The members of a canonical object have the canonical values, if no name comes twice. -/
theorem find?_canonicalMembers {ms : Members} (h : (ms.map (·.1)).Nodup) (n : String) :
    (canonicalMembers ms).find? n = (ms.find? n).map canonical := by
  induction ms generalizing n with
  | nil => rfl
  | cons m ms ih =>
    obtain ⟨hm, hms⟩ := List.nodup_cons.1 h
    have hnone : Members.find? ms m.1 = none :=
      find?_eq_none fun m' hm' heq => hm (List.mem_map.2 ⟨m', hm', heq.symm⟩)
    rw [canonicalMembers, find?_addOlder (sorted_canonicalMembers ms), ih hms, ih hms, hnone,
      find?_cons]
    split <;> rfl

/-! ### Canonical forms -/

/-- What holds of scalars, and of arrays and objects if it holds of all that is in them, holds of
every value. -/
theorem induction_on {P : Value → Prop} (v : Value) (scalar : ∀ v, v.height = 0 → P v)
    (array : ∀ items, (∀ v ∈ items, P v) → P (.array items))
    (object : ∀ ms : Members, (∀ m ∈ ms, P m.2) → P (.object ms)) : P v := by
  induction hn : v.height using Nat.strongRecOn generalizing v with
  | _ n ih =>
    subst hn
    cases v with
    | array items =>
      refine array items fun v hv => ih v.height ?_ v rfl
      exact Nat.lt_succ_of_le (itemsHeight_le.1 (Nat.le_refl _) v hv)
    | object ms =>
      refine object ms fun m hm => ih m.2.height ?_ m.2 rfl
      exact Nat.lt_succ_of_le (membersHeight_le.1 (Nat.le_refl _) m hm)
    | _ => exact scalar _ rfl

/-- **A canonical value is its own canonical form.** -/
theorem canonical_canonical (v : Value) : v.canonical.canonical = v.canonical := by
  induction v using induction_on with
  | scalar v hv => cases v <;> first | rfl | cases hv
  | array items ih =>
    have hitems : ∀ v ∈ items, (canonical ∘ canonical) v = canonical v := ih
    rw [canonical, canonical, canonicalItems_eq, canonicalItems_eq, List.map_map,
      List.map_congr_left hitems]
  | object ms ih =>
    have hmembers : ∀ m ∈ canonicalMembers ms, (m.1, m.2.canonical) = id m := by
      intro m hm
      obtain ⟨m', hm', rfl⟩ := mem_canonicalMembers hm
      exact congrArg (Prod.mk m'.1) (ih m' hm')
    rw [canonical, canonical, canonicalMembers_of_sorted (sorted_canonicalMembers ms),
      List.map_congr_left hmembers, List.map_id]

/-- A canonical form has no more levels than the value. -/
theorem height_canonical_le (v : Value) : v.canonical.height ≤ v.height := by
  induction v using induction_on with
  | scalar v hv => cases v <;> first | exact Nat.le_refl _ | cases hv
  | array items ih =>
    have hitems : ∀ v ∈ canonicalItems items, v.height ≤ itemsHeight items := by
      intro v hv
      rw [canonicalItems_eq] at hv
      obtain ⟨v', hv', rfl⟩ := List.mem_map.1 hv
      exact (ih v' hv').trans (itemsHeight_le.1 (Nat.le_refl _) v' hv')
    exact Nat.succ_le_succ (itemsHeight_le.2 hitems)
  | object ms ih =>
    have hmembers : ∀ m ∈ canonicalMembers ms, m.2.height ≤ membersHeight ms := by
      intro m hm
      obtain ⟨m', hm', rfl⟩ := mem_canonicalMembers hm
      exact (ih m' hm').trans (membersHeight_le.1 (Nat.le_refl _) m' hm')
    exact Nat.succ_le_succ (membersHeight_le.2 hmembers)

end Value

end IndexFeed.Json
