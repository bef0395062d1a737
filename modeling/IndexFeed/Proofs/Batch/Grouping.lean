import IndexFeed.Batch.Accumulator
import Mathlib.Data.List.Induction

/-!
# Grouping by endpoint

An accumulator that was empty holds the grouping by endpoint of all that was put in
(`records_putAll_empty`), and nothing that it held before has a say in what is added
(`entriesOf_putAll`). Grouping is a congruence for concatenation (`grouped_append_congr`), and what
an accumulator holds stands for all that was put in (`grouped_ungrouped`): so an event may be judged
by what it leaves in an accumulator of its own.
-/

namespace IndexFeed

/-- An entry on its way to an endpoint, and the stamp that it comes under. -/
structure Posting where
  address : Address
  stamp : Stamp
  entry : Entry
  deriving DecidableEq, Repr

def entriesTo (a : Address) (xs : List Posting) : List Entry :=
  (xs.filter (·.address = a)).map (·.entry)

/-- The postings to other endpoints than `a`. -/
def notTo (a : Address) (xs : List Posting) : List Posting := xs.filter (·.address ≠ a)

theorem length_notTo_le (a : Address) (xs : List Posting) : (notTo a xs).length ≤ xs.length :=
  List.length_filter_le ..

/-- **Grouping by endpoint.** Endpoints stand in the order they are first seen. The record of each
has the stamp of its first posting and the entries of all of them, in order. -/
def grouped : List Posting → List (Address × Record)
  | [] => []
  | x :: xs =>
    (x.address, ⟨x.stamp, x.entry :: entriesTo x.address xs⟩) :: grouped (notTo x.address xs)
termination_by xs => xs.length
decreasing_by exact Nat.lt_succ_of_le (length_notTo_le ..)

/-- The postings that records stand for. -/
def ungrouped (rs : List (Address × Record)) : List Posting :=
  rs.flatMap fun (a, r) => r.entries.map fun e => ⟨a, r.stamp, e⟩

namespace Accumulator

def put (acc : Accumulator) (x : Posting) : Accumulator := acc.upsert x.address x.stamp x.entry

def putAll (acc : Accumulator) (xs : List Posting) : Accumulator := xs.foldl put acc

/-- The entries for `a`, none if it has not been seen. -/
def entriesOf (acc : Accumulator) (a : Address) : List Entry := (acc.get? a).elim [] (·.entries)

end Accumulator

/-! ### Postings by endpoint -/

section Postings

variable (a b : Address) (x : Posting) (xs ys : List Posting)

@[simp] theorem entriesTo_nil : entriesTo a [] = [] := rfl

@[simp] theorem entriesTo_cons :
    entriesTo a (x :: xs) =
      if x.address = a then x.entry :: entriesTo a xs else entriesTo a xs := by
  by_cases h : x.address = a <;> simp [entriesTo, h]

@[simp] theorem entriesTo_append : entriesTo a (xs ++ ys) = entriesTo a xs ++ entriesTo a ys := by
  simp [entriesTo]

@[simp] theorem notTo_nil : notTo a [] = [] := rfl

@[simp] theorem notTo_cons :
    notTo a (x :: xs) = if x.address = a then notTo a xs else x :: notTo a xs := by
  by_cases h : x.address = a <;> simp [notTo, h]

@[simp] theorem notTo_append : notTo a (xs ++ ys) = notTo a xs ++ notTo a ys := by
  simp [notTo]

@[simp] theorem notTo_self : notTo a (notTo a xs) = notTo a xs := by
  simp [notTo]

theorem notTo_comm : notTo a (notTo b xs) = notTo b (notTo a xs) := by
  simp [notTo, List.filter_filter, Bool.and_comm]

variable {a b x xs}

theorem mem_entriesTo {e : Entry} :
    e ∈ entriesTo a xs ↔ ∃ x ∈ xs, x.address = a ∧ x.entry = e := by
  simp [entriesTo, and_assoc]

theorem mem_notTo : x ∈ notTo a xs ↔ x ∈ xs ∧ x.address ≠ a := by
  simp [notTo]

@[simp] theorem entriesTo_notTo_self : entriesTo a (notTo a xs) = [] := by
  simp [entriesTo, notTo, List.filter_filter]

theorem entriesTo_notTo (h : b ≠ a) : entriesTo b (notTo a xs) = entriesTo b xs := by
  induction xs with
  | nil => rfl
  | cons x xs ih =>
    by_cases hx : x.address = a
    · have hb : ¬ x.address = b := fun hb => h (hb ▸ hx)
      simp [hx, Ne.symm h, ih]
    · simp [hx, ih]

end Postings

/-! ### Accumulators -/

theorem grouped_append_singleton (xs : List Posting) (x : Posting) :
    grouped (xs ++ [x]) = Accumulator.insert x.address x.stamp x.entry (grouped xs) := by
  fun_induction grouped xs with
  | case1 => simp [grouped, Accumulator.insert]
  | case2 y ys ih =>
    rw [List.cons_append, grouped, entriesTo_append, notTo_append]
    by_cases h : x.address = y.address
    · simp [Accumulator.insert, h]
    · simp [Accumulator.insert, h, Ne.symm h, ih]

namespace Accumulator

@[simp] theorem putAll_nil (acc : Accumulator) : acc.putAll [] = acc := rfl

@[simp] theorem putAll_append (acc : Accumulator) (xs ys : List Posting) :
    acc.putAll (xs ++ ys) = (acc.putAll xs).putAll ys :=
  List.foldl_append

/-- **What an empty accumulator comes to hold** is the grouping of what is put in. -/
theorem records_putAll_empty (xs : List Posting) : (empty.putAll xs).records = grouped xs := by
  induction xs using List.reverseRecOn with
  | nil => simp [grouped, empty]
  | append_singleton xs x ih =>
    rw [putAll_append, grouped_append_singleton, ← ih]
    rfl

theorem putAll_empty (xs : List Posting) : empty.putAll xs = ⟨grouped xs⟩ := by
  rw [← records_putAll_empty]

/-- Only the record of the endpoint that is told changes: it keeps the stamp it began with and gets
one more entry, or begins with that entry. -/
theorem get?_upsert (acc : Accumulator) (a b : Address) (stamp : Stamp) (e : Entry) :
    (acc.upsert b stamp e).get? a =
      if b = a then some ⟨(acc.get? a).elim stamp (·.stamp), acc.entriesOf a ++ [e]⟩
      else acc.get? a := by
  obtain ⟨rs⟩ := acc
  unfold upsert entriesOf get?
  induction rs with
  | nil =>
    by_cases h : b = a
    · simp [insert, h]
    · simp [insert, List.lookup_cons, beq_eq_false_iff_ne.2 (Ne.symm h), h]
  | cons cr rs ih =>
    obtain ⟨c, r⟩ := cr
    by_cases hc : c = b
    · subst hc
      by_cases h : c = a
      · simp [insert, h]
      · simp [insert, List.lookup_cons, beq_eq_false_iff_ne.2 (Ne.symm h), h]
    · by_cases h : c = a
      · subst h
        simp [insert, hc, Ne.symm hc]
      · simpa [insert, hc, List.lookup_cons, beq_eq_false_iff_ne.2 (Ne.symm h)] using ih

theorem entriesOf_upsert (acc : Accumulator) (a b : Address) (stamp : Stamp) (e : Entry) :
    (acc.upsert b stamp e).entriesOf a = acc.entriesOf a ++ if b = a then [e] else [] := by
  rw [entriesOf, get?_upsert]
  by_cases h : b = a
  · rw [if_pos h, if_pos h, Option.elim_some]
  · rw [if_neg h, if_neg h, List.append_nil, entriesOf]

/-- **One entry for many:** each endpoint that is told gets the entry as often as it is mentioned,
in the record that it has or in one that begins with it, and no other record changes. -/
theorem get?_foldl_upsert (addresses : List Address) (stamp : Stamp) (e : Entry) (acc : Accumulator)
    (a : Address) :
    (addresses.foldl (fun acc b => acc.upsert b stamp e) acc).get? a =
      if a ∈ addresses then
        some ⟨(acc.get? a).elim stamp (·.stamp),
          acc.entriesOf a ++ List.replicate (addresses.count a) e⟩
      else acc.get? a := by
  induction addresses generalizing acc with
  | nil => rfl
  | cons b addresses ih =>
    rw [List.foldl_cons, ih, get?_upsert, entriesOf_upsert]
    by_cases hb : b = a
    · subst hb
      rw [if_pos rfl, if_pos rfl, if_pos List.mem_cons_self, List.count_cons_self,
        Option.elim_some, List.replicate_succ, List.append_assoc, List.singleton_append]
      -- the stamp is settled with the first mention
      split
      · rfl
      · next hrest => rw [List.count_eq_zero_of_not_mem hrest, List.replicate_zero]
    · rw [if_neg hb, if_neg hb, List.append_nil, List.count_cons_of_ne hb]
      simp only [List.mem_cons, Ne.symm hb, false_or]

/-- **Nothing is lost and nothing is moved:** whatever an accumulator holds, the entries of an
endpoint grow by those that are put in for it. -/
theorem entriesOf_putAll (acc : Accumulator) (xs : List Posting) (a : Address) :
    (acc.putAll xs).entriesOf a = acc.entriesOf a ++ entriesTo a xs := by
  induction xs generalizing acc with
  | nil => simp
  | cons x xs ih =>
    have hcons : acc.putAll (x :: xs) = (acc.put x).putAll xs := rfl
    rw [hcons, ih, put, entriesOf_upsert, List.append_assoc, entriesTo_cons]
    by_cases h : x.address = a <;> simp [h]

@[simp] theorem entriesOf_empty (a : Address) : empty.entriesOf a = [] := rfl

theorem entriesOf_grouped (xs : List Posting) (a : Address) :
    (⟨grouped xs⟩ : Accumulator).entriesOf a = entriesTo a xs := by
  rw [← putAll_empty, entriesOf_putAll, entriesOf_empty, List.nil_append]

end Accumulator

/-! ### Grouping as a view -/

theorem entriesTo_eq_of_grouped_eq {xs ys : List Posting} (h : grouped xs = grouped ys)
    (a : Address) : entriesTo a xs = entriesTo a ys := by
  rw [← Accumulator.entriesOf_grouped, ← Accumulator.entriesOf_grouped, h]

theorem grouped_notTo (a : Address) (xs : List Posting) :
    grouped (notTo a xs) = (grouped xs).filter (·.1 ≠ a) := by
  fun_induction grouped xs with
  | case1 => simp [grouped]
  | case2 x xs ih =>
    by_cases h : x.address = a
    · rw [notTo_cons, if_pos h, List.filter_cons_of_neg (by simpa using h), ← ih, h, notTo_self]
    · rw [notTo_cons, if_neg h, List.filter_cons_of_pos (by simpa using h), ← ih, grouped,
        entriesTo_notTo h, notTo_comm]

/-- **Grouping is a congruence for concatenation.** -/
theorem grouped_append_congr {xs xs' ys ys' : List Posting} (hx : grouped xs = grouped xs')
    (hy : grouped ys = grouped ys') : grouped (xs ++ ys) = grouped (xs' ++ ys') := by
  have hleft : grouped (xs ++ ys) = grouped (xs' ++ ys) := by
    rw [← Accumulator.records_putAll_empty, ← Accumulator.records_putAll_empty,
      Accumulator.putAll_append, Accumulator.putAll_append, Accumulator.putAll_empty xs,
      Accumulator.putAll_empty xs', hx]
  rw [hleft]
  clear hleft hx
  -- the first part is the same on both sides, and what is behind it only shows through its groups
  induction hn : xs'.length using Nat.strongRecOn generalizing xs' ys ys' with
  | _ n ih =>
    cases xs' with
    | nil => exact hy
    | cons x xs' =>
      have hshort : (notTo x.address xs').length < n :=
        hn ▸ Nat.lt_succ_of_le (length_notTo_le ..)
      have hrest : grouped (notTo x.address ys) = grouped (notTo x.address ys') := by
        rw [grouped_notTo, grouped_notTo, hy]
      rw [List.cons_append, List.cons_append, grouped, grouped, entriesTo_append,
        entriesTo_append, entriesTo_eq_of_grouped_eq hy, notTo_append, notTo_append,
        ih _ hshort hrest rfl]

theorem grouped_flatMap_filter {α : Type} {f g : α → List Posting} (p : α → Bool) (cs : List α)
    (hkept : ∀ c ∈ cs, p c = true → grouped (f c) = grouped (g c))
    (hout : ∀ c ∈ cs, p c = false → g c = []) :
    grouped ((cs.filter p).flatMap f) = grouped (cs.flatMap g) := by
  induction cs with
  | nil => rfl
  | cons c cs ih =>
    have hrest := ih (fun c' hc => hkept c' (List.mem_cons_of_mem _ hc))
      (fun c' hc => hout c' (List.mem_cons_of_mem _ hc))
    cases hp : p c with
    | true =>
      rw [List.filter_cons_of_pos hp, List.flatMap_cons, List.flatMap_cons]
      exact grouped_append_congr (hkept c List.mem_cons_self hp) hrest
    | false =>
      rw [List.filter_cons_of_neg (by simp [hp]), List.flatMap_cons,
        hout c List.mem_cons_self hp, List.nil_append]
      exact hrest

theorem grouped_map_posting (a : Address) (stamp : Stamp) (e : Entry) (es : List Entry)
    {ys : List Posting} (hys : ∀ y ∈ ys, y.address ≠ a) :
    grouped (((e :: es).map fun e => ⟨a, stamp, e⟩) ++ ys) =
      (a, ⟨stamp, e :: es⟩) :: grouped ys := by
  have hentries : entriesTo a ys = [] := by
    rw [entriesTo, List.filter_eq_nil_iff.2 (by simpa using hys), List.map_nil]
  have hrest : notTo a ys = ys := List.filter_eq_self.2 (by simpa using hys)
  have hes : entriesTo a (es.map fun e => ⟨a, stamp, e⟩) = es ∧
      notTo a (es.map fun e => (⟨a, stamp, e⟩ : Posting)) = [] := by
    induction es with
    | nil => exact ⟨rfl, rfl⟩
    | cons f es ih => simp [ih]
  rw [List.map_cons, List.cons_append, grouped, entriesTo_append, hes.1, hentries,
    List.append_nil, notTo_append, hes.2, hrest, List.nil_append]

theorem posting_of_mem_grouped {xs : List Posting} {g : Address × Record} (h : g ∈ grouped xs) :
    ∃ x ∈ xs, x.address = g.1 ∧ x.stamp = g.2.stamp := by
  fun_induction grouped xs with
  | case1 => simp at h
  | case2 x xs ih =>
    rcases List.mem_cons.1 h with rfl | h
    · exact ⟨x, List.mem_cons_self, rfl, rfl⟩
    · obtain ⟨y, hy, hg⟩ := ih h
      exact ⟨y, List.mem_cons_of_mem _ (mem_notTo.1 hy).1, hg⟩

/-- **Records stand for all that was put in.** -/
theorem grouped_ungrouped (xs : List Posting) : grouped (ungrouped (grouped xs)) = grouped xs := by
  fun_induction grouped xs with
  | case1 => simp [ungrouped, grouped]
  | case2 x xs ih =>
    have helse : ∀ y ∈ ungrouped (grouped (notTo x.address xs)), y.address ≠ x.address := by
      intro y hy
      simp only [ungrouped, List.mem_flatMap, List.mem_map] at hy
      obtain ⟨g, hg, e, -, rfl⟩ := hy
      obtain ⟨z, hz, hzg, -⟩ := posting_of_mem_grouped hg
      exact hzg ▸ (mem_notTo.1 hz).2
    rw [ungrouped, List.flatMap_cons, ← ungrouped, grouped_map_posting _ _ _ _ helse, ih]

end IndexFeed
