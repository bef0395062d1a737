import IndexFeed.Config.Path
import Mathlib.Data.String.Basic

/-!
# Paths through a merge

What a path leads to in a merge is a matter of what it leads to in either part (`find?_merge`): the
later part decides if it has anything at the path or something other than a mapping on the way to
it (`Path.Touches`), and what it has is then merged with what the earlier part has there. This needs
the names of the later part to differ, which they do in tidy data (`Tidy`), and merging keeps data
tidy (`tidy_merge`).
-/

namespace IndexFeed.Config

open Schema (Datum)

/-! ### Definitions -/

def isMapping : Datum → Bool
  | .mapping _ => true
  | _ => false

/-- Whether a datum is neither a mapping nor a sequence. -/
def isScalar : Datum → Bool
  | .mapping _ | .sequence _ => false
  | _ => true

/-- A datum touches a path if it has something at the path, or something other than a mapping on
the way there. -/
def Path.Touches (P : Path) (d : Datum) : Prop :=
  (P.find? d).isSome = true ∨
    ∃ Q v, Q <+: P ∧ Q ≠ P ∧ Path.find? Q d = some v ∧ isMapping v = false

/-- Names in ascending order. -/
def Entries.Sorted (es : Entries) : Prop := es.Pairwise fun e e' => e.1 < e'.1

/-- The entries of all mappings that a path leads to are sorted, and so no name comes twice. -/
def Tidy (d : Datum) : Prop := ∀ (P : Path) es, P.find? d = some (.mapping es) → Entries.Sorted es

/-- What a path leads to once a datum that touches it has been merged in, given what it led to
before and what it leads to in that datum. -/
def overlay (rule : SequenceRule) (before : Option Datum) : Option Datum → Option Datum
  | some d => some (before.elim d fun old => merge rule old d)
  | none => none

/-! ### Entries -/

namespace Entries

variable {name n : String} {d : Datum} {es : Entries}

theorem get?_cons (e : String × Datum) (es : Entries) (n : String) :
    get? (e :: es) n = if n = e.1 then some e.2 else get? es n := by
  obtain ⟨m, d⟩ := e
  by_cases h : n = m
  · simp [get?, h]
  · simp [get?, List.lookup_cons, h, beq_eq_false_iff_ne.2 h]

theorem mem_of_get? (h : get? es n = some d) : (n, d) ∈ es := by
  induction es with
  | nil => cases h
  | cons e es ih =>
    rw [get?_cons] at h
    split at h
    · next heq =>
      cases h
      rw [heq]
      exact List.mem_cons_self
    · exact List.mem_cons_of_mem e (ih h)

theorem get?_put (name : String) (d : Datum) (es : Entries) (n : String) :
    get? (put name d es) n = if n = name then some d else get? es n := by
  induction es with
  | nil => rw [put, get?_cons]
  | cons e es ih =>
    obtain ⟨m, old⟩ := e
    unfold put
    split
    · rw [get?_cons]
    split
    · next heq =>
      rw [get?_cons, get?_cons, ← heq]
      split <;> rfl
    · next hne =>
      rw [get?_cons, ih, get?_cons]
      by_cases h : n = m
      · have hother : n ≠ name := fun hn => hne (hn.symm.trans h)
        rw [if_pos h, if_neg hother, if_pos h]
      · rw [if_neg h, if_neg h]

theorem mem_of_mem_put {e : String × Datum} (h : e ∈ put name d es) : e = (name, d) ∨ e ∈ es := by
  induction es with
  | nil => exact .inl (List.mem_singleton.1 h)
  | cons e' es ih =>
    obtain ⟨m, old⟩ := e'
    unfold put at h
    split at h
    · exact List.mem_cons.1 h
    split at h
    · exact (List.mem_cons.1 h).imp_right (List.mem_cons_of_mem _)
    · rcases List.mem_cons.1 h with rfl | h
      · exact .inr List.mem_cons_self
      · exact (ih h).imp_right (List.mem_cons_of_mem _)

theorem sorted_put (name : String) (d : Datum) (h : Sorted es) : Sorted (put name d es) := by
  induction es with
  | nil => exact List.pairwise_singleton _ _
  | cons e' es ih =>
    obtain ⟨m, old⟩ := e'
    obtain ⟨hm, hes⟩ := List.pairwise_cons.1 h
    unfold put
    split
    · next hlt =>
      refine List.pairwise_cons.2 ⟨fun e he => ?_, h⟩
      rcases List.mem_cons.1 he with rfl | he
      · exact hlt
      · exact lt_trans hlt (hm e he)
    split
    · next heq => exact List.pairwise_cons.2 ⟨heq ▸ hm, hes⟩
    · next hge hne =>
      refine List.pairwise_cons.2 ⟨fun e he => ?_, ih hes⟩
      rcases mem_of_mem_put he with rfl | he
      · exact lt_of_le_of_ne (not_lt.1 hge) (Ne.symm hne)
      · exact hm e he

theorem put_of_lt (h : ∀ e ∈ es, e.1 < name) : put name d es = es ++ [(name, d)] := by
  induction es with
  | nil => rfl
  | cons e es ih =>
    obtain ⟨hlt, hes⟩ := List.forall_mem_cons.1 h
    rw [put, if_neg (lt_asymm hlt), if_neg hlt.ne', ih hes, List.cons_append]

end Entries

/-! ### Merging entries -/

section Merge

variable {rule : SequenceRule} {es later : Entries}

theorem get?_mergeEntries (h : Entries.Sorted later) (es : Entries) (n : String) :
    Entries.get? (mergeEntries rule es later) n =
      if (Entries.get? later n).isSome then overlay rule (es.get? n) (Entries.get? later n)
      else es.get? n := by
  induction later generalizing es with
  | nil => rfl
  | cons e later ih =>
    obtain ⟨m, d⟩ := e
    obtain ⟨hm, hlater⟩ := List.pairwise_cons.1 h
    have hnone : Entries.get? later m = none := by
      by_contra hsome
      obtain ⟨d', hd'⟩ := Option.ne_none_iff_exists'.1 hsome
      exact (hm _ (Entries.mem_of_get? hd')).ne rfl
    rw [mergeEntries, ih hlater, Entries.get?_cons, Entries.get?_put]
    by_cases hn : n = m
    · subst hn
      simp only [hnone, if_true]
      cases es.get? n <;> rfl
    · simp [hn]

theorem sorted_mergeEntries (rule : SequenceRule) (h : Entries.Sorted es) (later : Entries) :
    Entries.Sorted (mergeEntries rule es later) := by
  induction later generalizing es with
  | nil => exact h
  | cons e later ih => exact ih (Entries.sorted_put _ _ h)

theorem mergeEntries_nil (rule : SequenceRule) (h : Entries.Sorted later) :
    mergeEntries rule [] later = later := by
  have happend : ∀ before : Entries, Entries.Sorted (before ++ later) →
      mergeEntries rule before later = before ++ later := by
    clear h
    induction later with
    | nil => intro before _; rw [mergeEntries, List.append_nil]
    | cons e later ih =>
      intro before h
      obtain ⟨m, d⟩ := e
      have hbefore : ∀ e ∈ before, e.1 < m :=
        fun e he => (List.pairwise_append.1 h).2.2 e he (m, d) List.mem_cons_self
      have hnone : Entries.get? before m = none := by
        by_contra hsome
        obtain ⟨d', hd'⟩ := Option.ne_none_iff_exists'.1 hsome
        exact (hbefore _ (Entries.mem_of_get? hd')).ne rfl
      rw [mergeEntries, hnone, Entries.put_of_lt hbefore, ih _ (by rwa [← List.append_cons]),
        ← List.append_cons]
  exact happend [] h

end Merge

/-! ### Paths -/

namespace Path

variable {name : String} {P : Path} {es : Entries} {d : Datum}

theorem find?_of_not_mapping (h : isMapping d = false) (name : String) (P : Path) :
    Path.find? (name :: P) d = none := by
  cases d <;> first | rfl | cases h

theorem touches_nil (d : Datum) : Path.Touches [] d := .inl rfl

theorem touches_of_not_mapping (h : isMapping d = false) (name : String) (P : Path) :
    Path.Touches (name :: P) d :=
  .inr ⟨[], d, List.nil_prefix, (List.cons_ne_nil name P).symm, rfl, h⟩

theorem touches_mapping :
    Path.Touches (name :: P) (.mapping es) ↔ ∃ d, es.get? name = some d ∧ Path.Touches P d := by
  unfold Touches
  constructor
  · rintro (h | ⟨Q, v, hprefix, hne, hfind, hv⟩)
    · obtain ⟨v, hv⟩ := Option.isSome_iff_exists.1 h
      obtain ⟨d, hd, hrest⟩ := Option.bind_eq_some_iff.1 hv
      exact ⟨d, hd, .inl (Option.isSome_of_eq_some hrest)⟩
    · cases Q with
      | nil =>
        cases hfind
        cases hv
      | cons n Q =>
        obtain ⟨rfl, hshort⟩ := List.cons_prefix_cons.1 hprefix
        obtain ⟨d, hd, hrest⟩ := Option.bind_eq_some_iff.1 hfind
        exact ⟨d, hd, .inr ⟨Q, v, hshort, fun heq => hne (heq ▸ rfl), hrest, hv⟩⟩
  · rintro ⟨d, hd, h | ⟨Q, v, hprefix, hne, hfind, hv⟩⟩
    · left
      rw [find?, hd]
      exact h
    · refine .inr ⟨name :: Q, v, List.cons_prefix_cons.2 ⟨rfl, hprefix⟩, ?_, ?_, hv⟩
      · exact fun heq => hne (List.cons_inj_right name |>.1 heq)
      · rw [find?, hd]
        exact hfind

/-- The way to a path, walked name by name. -/
def touches : Path → Datum → Bool
  | [], _ => true
  | name :: P, .mapping es => (Entries.get? es name).any (touches P)
  | _ :: _, _ => true

theorem touches_iff (P : Path) (d : Datum) : touches P d = true ↔ Touches P d := by
  induction P generalizing d with
  | nil => exact iff_of_true rfl (touches_nil d)
  | cons name P ih => cases d with
    | mapping es =>
      rw [touches_mapping, touches, Option.any_eq_true]
      simp only [ih]
    | _ => exact iff_of_true rfl (touches_of_not_mapping rfl name P)

instance (P : Path) (d : Datum) : Decidable (Touches P d) :=
  decidable_of_iff _ (touches_iff P d)

theorem find?_of_not_touches (h : ¬ Touches P d) : find? P d = none :=
  Option.not_isSome_iff_eq_none.1 fun hsome => h (.inl hsome)

end Path

/-! ### Tidy data -/

section Tidy

variable {es : Entries} {d : Datum}

theorem Tidy.sorted (h : Tidy (.mapping es)) : Entries.Sorted es := h [] es rfl

theorem Tidy.get? (h : Tidy (.mapping es)) {name : String} (hd : es.get? name = some d) :
    Tidy d := by
  intro P es' hes'
  refine h (name :: P) es' ?_
  rw [Path.find?, hd]
  exact hes'

theorem tidy_mapping (hsorted : Entries.Sorted es) (h : ∀ e ∈ es, Tidy e.2) :
    Tidy (.mapping es) := by
  intro P es' hes'
  cases P with
  | nil =>
    cases hes'
    exact hsorted
  | cons name P =>
    obtain ⟨d, hd, hrest⟩ := Option.bind_eq_some_iff.1 hes'
    exact h (name, d) (Entries.mem_of_get? hd) P es' hrest

theorem tidy_of_not_mapping (h : isMapping d = false) : Tidy d := by
  intro P es hes
  cases P with
  | nil =>
    cases hes
    cases h
  | cons name P =>
    rw [Path.find?_of_not_mapping h] at hes
    cases hes

end Tidy

/-! ### Merging data -/

section MergeData

variable {rule : SequenceRule} {earlier later : Datum}

theorem merge_of_isScalar (h : isScalar later = true) : merge rule earlier later = later := by
  cases later <;> first | rfl | cases h

theorem isMapping_merge : isMapping (merge rule earlier later) = isMapping later := by
  cases later with
  | mapping es => cases earlier <;> rfl
  | sequence items => cases rule <;> cases earlier <;> rfl
  | _ => rfl

theorem merge_mapping (h : isMapping earlier = false) (es : Entries) :
    merge rule earlier (.mapping es) = .mapping es := by
  cases earlier <;> first | rfl | cases h

theorem overlay_none (rule : SequenceRule) (P : Path) (d : Datum) :
    (if Path.Touches P d then overlay rule none (Path.find? P d) else none) = Path.find? P d := by
  split
  · cases Path.find? P d <;> rfl
  · next htouches => rw [Path.find?_of_not_touches htouches]

/-- **Where a path leads in a merge.** -/
theorem find?_merge (h : Tidy later) (P : Path) (earlier : Datum) :
    Path.find? P (merge rule earlier later) =
      if Path.Touches P later then overlay rule (Path.find? P earlier) (Path.find? P later)
      else Path.find? P earlier := by
  induction P generalizing earlier later with
  | nil =>
    rw [if_pos (Path.touches_nil later)]
    rfl
  | cons name P ih => cases hlater : isMapping later with
    | false =>
      have hmerge : isMapping (merge rule earlier later) = false := by rw [isMapping_merge, hlater]
      rw [if_pos (Path.touches_of_not_mapping hlater name P), Path.find?_of_not_mapping hlater,
        Path.find?_of_not_mapping hmerge]
      rfl
    | true =>
      obtain ⟨es, rfl⟩ : ∃ es, later = .mapping es := by
        cases later <;> first | exact ⟨_, rfl⟩ | cases hlater
      cases hearlier : isMapping earlier with
      | false =>
        rw [merge_mapping hearlier, Path.find?_of_not_mapping hearlier, overlay_none]
      | true =>
        obtain ⟨before, rfl⟩ : ∃ before, earlier = .mapping before := by
          cases earlier <;> first | exact ⟨_, rfl⟩ | cases hearlier
        simp only [Path.touches_mapping, merge, Path.find?, get?_mergeEntries h.sorted]
        cases hes : Entries.get? es name with
        | none => simp
        | some d =>
          -- the rest of the path leads on within `d`, and within what was before if there was any
          cases Entries.get? before name with
          | none => simpa [overlay] using (overlay_none rule P d).symm
          | some old => simpa [overlay] using ih (h.get? hes) old

theorem sorted_of_merge_eq {es : Entries}
    (hearlier : ∀ before, earlier = .mapping before → Entries.Sorted before)
    (hlater : ∀ es, later = .mapping es → Entries.Sorted es)
    (h : merge rule earlier later = .mapping es) : Entries.Sorted es := by
  cases later with
  | mapping after => cases earlier with
    | mapping before =>
      cases h
      exact sorted_mergeEntries rule (hearlier before rfl) after
    | _ =>
      cases h
      exact hlater _ rfl
  | sequence items => cases rule <;> cases earlier <;> cases h
  | _ => cases h

/-- **Merging keeps data tidy.** -/
theorem tidy_merge (hearlier : Tidy earlier) (hlater : Tidy later) :
    Tidy (merge rule earlier later) := by
  intro P es hes
  rw [find?_merge hlater] at hes
  split at hes
  · cases hd : Path.find? P later with
    | none =>
      rw [hd] at hes
      cases hes
    | some d =>
      rw [hd] at hes
      injection hes with hes
      cases hold : Path.find? P earlier with
      | none =>
        rw [hold] at hes
        exact hlater P es (hd.trans (congrArg some hes))
      | some old =>
        rw [hold] at hes
        refine sorted_of_merge_eq (fun before hbefore => ?_) (fun after hafter => ?_) hes
        · exact hearlier P before (hold.trans (congrArg some hbefore))
        · exact hlater P after (hd.trans (congrArg some hafter))
  · exact hearlier P es hes

theorem tidy_foldl_mergeEntries (rule : SequenceRule) {layers : List Entries} {start : Entries}
    (h : ∀ es ∈ layers, Tidy (.mapping es)) (hstart : Tidy (.mapping start)) :
    Tidy (.mapping (layers.foldl (mergeEntries rule) start)) := by
  induction layers generalizing start with
  | nil => exact hstart
  | cons es layers ih =>
    obtain ⟨hes, hlayers⟩ := List.forall_mem_cons.1 h
    have hnext : Tidy (merge rule (.mapping start) (.mapping es)) := tidy_merge hstart hes
    exact ih hlayers hnext

end MergeData

end IndexFeed.Config
