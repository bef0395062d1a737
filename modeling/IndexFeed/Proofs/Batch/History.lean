import IndexFeed.Proofs.Routing.Accounting
import Mathlib.Data.Finset.Card
import Mathlib.Data.List.DropRight
import Mathlib.Data.List.Sort

/-!
# Accumulators after any operations

What an accumulator holds is a matter of the history of what was done with it, and of that only what
was put in since the records were last taken out (`Operation.sinceEmptied`). Records that group
postings are determined by them (`Groups.unique`), and the records of an accumulator are the ones
that group what was put in since (`first_seen_grouping`). The invariant is that the accumulator is
one into which just these postings were put, and each operation keeps it (`perform_putAll`).
-/

namespace IndexFeed

/-- Records group postings: each endpoint that is mentioned has one record, those come in the order
in which the endpoints are first mentioned, and a record has the stamp of the first posting to its
endpoint and the entries of all of them, in order. -/
structure Groups (xs : List Posting) (rs : List (Address × Record)) : Prop where
  endpoints : ∀ a, a ∈ rs.map (·.1) ↔ a ∈ xs.map (·.address)
  order : (rs.map (·.1)).Pairwise fun a b =>
    (xs.map (·.address)).idxOf a < (xs.map (·.address)).idxOf b
  stamp : ∀ g ∈ rs, (xs.find? (·.address = g.1)).map (·.stamp) = some g.2.stamp
  entries : ∀ g ∈ rs, g.2.entries = entriesTo g.1 xs
  filled : ∀ g ∈ rs, g.2.entries ≠ []

namespace Accumulator

/-- What can be done with an accumulator. -/
inductive Operation where
  | put (x : Posting)
  | get (a : Address)
  /-- All records are looked at. -/
  | list
  /-- All records are taken out, and no more than `read` of them are looked at. -/
  | drain (read : Nat)
  /-- The accumulator is given up for its records, and another one is begun. -/
  | takeApart

/-- What is learnt from an operation. -/
inductive Answer where
  | nothing
  | record (r : Option Record)
  | records (rs : List (Address × Record))

namespace Operation

/-- Whether nothing is held after the operation. -/
def empties : Operation → Bool
  | drain _ | takeApart => true
  | put _ | get _ | list => false

def posting? : Operation → Option Posting
  | put x => some x
  | get _ | list | drain _ | takeApart => none

/-- What was put in since the last operation that left nothing. -/
def sinceEmptied (ops : List Operation) : List Posting :=
  (ops.rtakeWhile (!·.empties)).filterMap posting?

end Operation

def perform (acc : Accumulator) : Operation → Answer × Accumulator
  | .put x => (.nothing, acc.put x)
  | .get a => (.record (acc.get? a), acc)
  | .list => (.records acc.records, acc)
  | .drain read => (.records (acc.drain.1.take read), acc.drain.2)
  | .takeApart => (.records acc.records, empty)

/-- The accumulator after operations on one that was empty. -/
def after (ops : List Operation) : Accumulator := ops.foldl (fun acc op => (acc.perform op).2) empty

/-- The answer that an operation has to give when `xs` are what was put in. -/
inductive Tells (xs : List Posting) : Operation → Answer → Prop
  | put (x : Posting) : Tells xs (.put x) .nothing
  | absent (a : Address) (h : a ∉ xs.map (·.address)) : Tells xs (.get a) (.record none)
  | present {rs : List (Address × Record)} (h : Groups xs rs) (a : Address) (r : Record)
      (hr : (a, r) ∈ rs) : Tells xs (.get a) (.record (some r))
  | list {rs : List (Address × Record)} (h : Groups xs rs) : Tells xs .list (.records rs)
  | drain {rs : List (Address × Record)} (h : Groups xs rs) (read : Nat) :
    Tells xs (.drain read) (.records (rs.take read))
  | takeApart {rs : List (Address × Record)} (h : Groups xs rs) :
    Tells xs .takeApart (.records rs)

end Accumulator

/-! ### Groups -/

/-- Leaving other letters out of a word does not change which of two comes first. -/
theorem idxOf_filter_lt {α : Type} [DecidableEq α] {p : α → Bool} {a b : α} (ha : p a = true)
    (hb : p b = true) (xs : List α) :
    (xs.filter p).idxOf a < (xs.filter p).idxOf b ↔ xs.idxOf a < xs.idxOf b := by
  induction xs with
  | nil => rfl
  | cons x xs ih =>
    by_cases hxa : x = a
    · subst hxa
      rw [List.filter_cons_of_pos ha]
      by_cases hxb : x = b
      · simp [hxb]
      · simp [List.idxOf_cons_ne _ hxb]
    · by_cases hxb : x = b
      · subst hxb
        simp [List.filter_cons_of_pos hb]
      · by_cases hx : p x = true
        · simp [List.filter_cons_of_pos hx, List.idxOf_cons_ne _ hxa, List.idxOf_cons_ne _ hxb, ih]
        · simp [List.filter_cons_of_neg hx, List.idxOf_cons_ne _ hxa, List.idxOf_cons_ne _ hxb, ih]

theorem find?_notTo {a b : Address} (h : b ≠ a) (xs : List Posting) :
    (notTo a xs).find? (·.address = b) = xs.find? (·.address = b) := by
  induction xs with
  | nil => rfl
  | cons x xs ih =>
    by_cases hx : x.address = a
    · simp [hx, ih, Ne.symm h]
    · simp [hx, ih, List.find?_cons]

theorem map_address_notTo (a : Address) (xs : List Posting) :
    (notTo a xs).map (·.address) = (xs.map (·.address)).filter (· ≠ a) := by
  rw [notTo, List.filter_map]
  rfl

theorem Groups.cons (x : Posting) {xs : List Posting} {rs : List (Address × Record)}
    (h : Groups (notTo x.address xs) rs) :
    Groups (x :: xs) ((x.address, ⟨x.stamp, x.entry :: entriesTo x.address xs⟩) :: rs) := by
  -- the groups of the rest are those of all other endpoints, in the order they had
  have hmem : ∀ a, a ∈ rs.map (·.1) ↔ a ∈ xs.map (·.address) ∧ a ≠ x.address := by
    intro a
    rw [h.endpoints, map_address_notTo, List.mem_filter, decide_eq_true_iff]
  have hne : ∀ g ∈ rs, g.1 ≠ x.address := fun g hg => ((hmem g.1).1 (List.mem_map_of_mem hg)).2
  constructor
  case endpoints =>
    intro a
    rw [List.map_cons, List.map_cons, List.mem_cons, List.mem_cons, hmem]
    by_cases ha : a = x.address <;> simp [ha]
  case order =>
    rw [List.map_cons, List.map_cons, List.pairwise_cons]
    refine ⟨fun a ha => ?_, h.order.imp_of_mem fun {a b} ha hb hab => ?_⟩
    · rw [List.idxOf_cons_self, List.idxOf_cons_ne _ (Ne.symm ((hmem a).1 ha).2)]
      exact Nat.succ_pos _
    · have hax := ((hmem a).1 ha).2
      have hbx := ((hmem b).1 hb).2
      rw [map_address_notTo, idxOf_filter_lt (by simpa using hax) (by simpa using hbx)] at hab
      rw [List.idxOf_cons_ne _ (Ne.symm hax), List.idxOf_cons_ne _ (Ne.symm hbx)]
      exact Nat.succ_lt_succ hab
  case stamp =>
    refine List.forall_mem_cons.2 ⟨by simp, fun g hg => ?_⟩
    rw [List.find?_cons_of_neg (by simpa using Ne.symm (hne g hg)), ← find?_notTo (hne g hg)]
    exact h.stamp g hg
  case entries =>
    refine List.forall_mem_cons.2 ⟨by simp, fun g hg => ?_⟩
    rw [entriesTo_cons, if_neg (Ne.symm (hne g hg)), ← entriesTo_notTo (hne g hg)]
    exact h.entries g hg
  case filled => exact List.forall_mem_cons.2 ⟨by simp, h.filled⟩

/-- **Grouping groups.** -/
theorem groups_grouped (xs : List Posting) : Groups xs (grouped xs) := by
  fun_induction grouped xs with
  | case1 => exact ⟨by simp, by simp, by simp, by simp, by simp⟩
  | case2 x xs ih => exact ih.cons x

namespace Groups

variable {xs : List Posting} {rs rs' : List (Address × Record)}

theorem nodup (h : Groups xs rs) : (rs.map (·.1)).Nodup := by
  refine h.order.imp fun {a b} hlt heq => ?_
  exact Nat.lt_irrefl _ (heq ▸ hlt)

/-- **Postings have one grouping.** -/
theorem unique (h : Groups xs rs) (h' : Groups xs rs') : rs = rs' := by
  have : Std.Irrefl fun a b : Address =>
      (xs.map (·.address)).idxOf a < (xs.map (·.address)).idxOf b := ⟨fun _ => Nat.lt_irrefl _⟩
  have : Std.Antisymm fun a b : Address =>
      (xs.map (·.address)).idxOf a < (xs.map (·.address)).idxOf b :=
    ⟨fun _ _ hab hba => absurd hba (Nat.lt_asymm hab)⟩
  have hendpoints : rs.map (·.1) = rs'.map (·.1) :=
    h.order.eq_of_mem_iff h'.order fun a => (h.endpoints a).trans (h'.endpoints a).symm
  have hlength : rs.length = rs'.length := by
    simpa using congrArg List.length hendpoints
  refine List.ext_getElem hlength fun i hi hi' => ?_
  have haddress : rs[i].1 = rs'[i].1 := by
    simpa [hi, hi'] using congrArg (·[i]?) hendpoints
  have hstamp := (h.stamp rs[i] (List.getElem_mem hi)).symm
  have hentries := h.entries rs[i] (List.getElem_mem hi)
  -- the endpoint is the same, and tells the record
  rw [haddress, h'.stamp rs'[i] (List.getElem_mem hi'), Option.some_inj] at hstamp
  rw [haddress, ← h'.entries rs'[i] (List.getElem_mem hi')] at hentries
  exact Prod.ext haddress (by rw [Record.mk.injEq]; exact ⟨hstamp, hentries⟩)

theorem length_eq (h : Groups xs rs) : rs.length = (xs.map (·.address)).toFinset.card := by
  have hsame : (rs.map (·.1)).toFinset = (xs.map (·.address)).toFinset := by
    ext a
    rw [List.mem_toFinset, List.mem_toFinset, h.endpoints]
  rw [← hsame, List.toFinset_card_of_nodup h.nodup, List.length_map]

end Groups

namespace Accumulator

/-! ### Looking up -/

theorem get?_eq_some_iff {acc : Accumulator} (h : (acc.records.map (·.1)).Nodup) {a : Address}
    {r : Record} : acc.get? a = some r ↔ (a, r) ∈ acc.records := by
  rw [get?, List.lookup_eq_some_iff]
  constructor
  · rintro ⟨before, behind, hrecords, -⟩
    rw [hrecords]
    exact List.mem_append_right _ List.mem_cons_self
  · intro hmem
    obtain ⟨before, behind, hrecords⟩ := List.append_of_mem hmem
    refine ⟨before, behind, hrecords, fun g hg => bne_iff_ne.2 fun heq => ?_⟩
    rw [hrecords, List.map_append, List.nodup_append] at h
    exact h.2.2 g.1 (List.mem_map_of_mem hg) a (by simp) heq.symm

theorem get?_eq_none_iff {acc : Accumulator} {a : Address} :
    acc.get? a = none ↔ a ∉ acc.records.map (·.1) := by
  rw [get?, List.lookup_eq_none_iff, List.mem_map]
  constructor
  · rintro h ⟨g, hg, rfl⟩
    exact bne_iff_ne.1 (h g hg) rfl
  · exact fun h g hg => bne_iff_ne.2 fun heq => h ⟨g, hg, heq.symm⟩

/-! ### One operation after another -/

theorem sinceEmptied_append_singleton (ops : List Operation) (op : Operation) :
    Operation.sinceEmptied (ops ++ [op]) =
      if op.empties then [] else Operation.sinceEmptied ops ++ op.posting?.toList := by
  unfold Operation.sinceEmptied
  rw [List.rtakeWhile_concat]
  cases op <;> simp [Operation.empties, Operation.posting?]

/-- **Each operation keeps the invariant.** -/
theorem perform_putAll (xs : List Posting) (op : Operation) :
    ((empty.putAll xs).perform op).2 =
      empty.putAll (if op.empties then [] else xs ++ op.posting?.toList) := by
  cases op with
  | put x => exact (putAll_append empty xs [x]).symm
  | get a => simp [perform, Operation.empties, Operation.posting?]
  | list => simp [perform, Operation.empties, Operation.posting?]
  | drain read => rfl
  | takeApart => rfl

/-- **What operations leave behind** is what was put in since there was nothing. -/
theorem after_eq (ops : List Operation) :
    after ops = empty.putAll (Operation.sinceEmptied ops) := by
  induction ops using List.reverseRecOn with
  | nil => rfl
  | append_singleton ops op ih =>
    have hlast : after (ops ++ [op]) = ((after ops).perform op).2 := by
      rw [after, List.foldl_append]
      rfl
    rw [hlast, ih, perform_putAll, sinceEmptied_append_singleton]

theorem tells_perform {acc : Accumulator} {xs : List Posting} (h : Groups xs acc.records)
    (op : Operation) : Tells xs op (acc.perform op).1 := by
  cases op with
  | put x => exact .put x
  | get a =>
    cases hget : acc.get? a with
    | none =>
      have habsent : a ∉ xs.map (·.address) := mt (h.endpoints a).2 (get?_eq_none_iff.1 hget)
      simpa only [perform, hget] using .absent a habsent
    | some r =>
      simpa only [perform, hget] using .present h a r ((get?_eq_some_iff h.nodup).1 hget)
  | list => exact .list h
  | drain read => exact .drain h read
  | takeApart => exact .takeApart h

/-- **First-seen grouping.** After any operations on an accumulator, its records are those that
group what was put in since the records were last taken out; a look at one endpoint agrees with the
list of all, and so do the sizes; whatever comes next is answered from these records, and if they
are taken out, nothing is left, however many were read. -/
theorem first_seen_grouping (ops : List Operation) :
    let acc := after ops
    let xs := Operation.sinceEmptied ops
    (∀ rs, Groups xs rs ↔ rs = acc.records) ∧
      (∀ a r, acc.get? a = some r ↔ (a, r) ∈ acc.records) ∧
      (∀ a, acc.get? a = none ↔ ∀ x ∈ xs, x.address ≠ a) ∧
      acc.size = (xs.map (·.address)).toFinset.card ∧
      acc.entryCount = xs.length ∧
      (acc.isEmpty = true ↔ xs = []) ∧
      ∀ op, Tells xs op (acc.perform op).1 ∧
        (op.empties = true → (acc.perform op).2 = empty) := by
  intro acc xs
  have hacc : acc = empty.putAll xs := after_eq ops
  have hgroups : Groups xs acc.records := by
    rw [hacc, records_putAll_empty]
    exact groups_grouped xs
  have hcount : acc.entryCount = xs.length := by
    rw [hacc, entryCount_eq, count_putAll, List.countP_true]
    exact Nat.zero_add _
  refine ⟨fun rs => ⟨fun h => h.unique hgroups, fun h => h ▸ hgroups⟩,
    fun a r => get?_eq_some_iff hgroups.nodup, fun a => ?_, hgroups.length_eq, hcount, ?_,
    fun op => ⟨tells_perform hgroups op, fun hop => ?_⟩⟩
  · rw [get?_eq_none_iff, hgroups.endpoints]
    simp
  · rw [isEmpty, List.isEmpty_iff, ← List.length_eq_zero_iff, hgroups.length_eq]
    simp
  · rw [hacc, perform_putAll, if_pos hop]
    rfl

end Accumulator

end IndexFeed
