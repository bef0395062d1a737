import IndexFeed.Proofs.Json.Scalars
import IndexFeed.Proofs.Json.Spelling

/-!
# Spelled numbers

A reader takes a number of the grammar as a whole, or refuses it since it is out of range, and what
stands behind the number has no say in this, as long as the number ends there (`Settles`). So a
number in a text comes to what it comes to alone (`reads_number`).
-/

namespace IndexFeed.Json

open Text (Bytes)
open Reader (Takes Reads)

variable {φ α β : Type}

def NoDigit (s : Bytes) : Prop := ∀ b t, s = b :: t → isDigit b = false

/-- The reader settles what `t` comes to wherever `t` stands ahead of something that ends a
number. -/
def Settles (m : Reader φ α) (t : Bytes) : Prop := ∃ o, ∀ rest, Ended rest → Reads m t rest o

/-! ### Steps -/

theorem Settles.bind {m : Reader φ α} {f : α → Reader φ β} {t t' : Bytes} {x : α}
    (h : ∀ rest, Ended rest → Takes m t (t' ++ rest) x) (hf : Settles (f x) t') :
    Settles (m >>= f) (t ++ t') := by
  obtain ⟨o, ho⟩ := hf
  exact ⟨o, fun rest hrest => (h rest hrest).reads_bind (ho rest hrest)⟩

theorem Settles.look {m : Reader φ α} {f : α → Reader φ β} {t : Bytes} {x : α}
    (h : ∀ rest, Ended rest → Takes m [] (t ++ rest) x) (hf : Settles (f x) t) :
    Settles (m >>= f) t :=
  Settles.bind (t := []) h hf

theorem Settles.drop_bind {f : Unit → Reader φ β} {t : Bytes} (hf : Settles (f ()) t) (b : UInt8) :
    Settles (Reader.drop >>= f) (b :: t) :=
  Settles.bind (t := [b]) (fun _ _ _ => rfl) hf

theorem settles_pure (x : α) : Settles (pure x : Reader φ α) [] :=
  ⟨some x, fun rest _ => Reader.takes_pure x rest⟩

theorem settles_fail (what : Problem) (t : Bytes) : Settles (Reader.fail what : Reader φ α) t :=
  ⟨none, fun _ _ _ _ => nofun⟩

theorem takes_peek (s : Bytes) : Takes (Reader.peek : Reader φ (Option UInt8)) [] s s.head? :=
  fun _ => rfl

theorem takes_peekDigit (s : Bytes) :
    Takes (peekDigit : Reader φ Bool) [] s (s.head?.any isDigit) := fun _ => rfl

/-! ### Digits -/

theorem NoDigit.any_head? {s : Bytes} (h : NoDigit s) : s.head?.any isDigit = false := by
  cases s with
  | nil => rfl
  | cons b t => exact h b t rfl

theorem Ended.noDigit {rest : Bytes} (h : Ended rest) : NoDigit rest := fun _ _ => h.isDigit_head

theorem noDigit_cons {b : UInt8} (h : isDigit b = false) (s : Bytes) : NoDigit (b :: s) := by
  intro c t hs
  cases hs
  exact h

section Digits

variable {ds : Bytes} (hds : ∀ b ∈ ds, isDigit b = true)

include hds

theorem takes_dropDigits {s : Bytes} (hs : NoDigit s) :
    Takes (dropDigits : Reader φ Nat) ds s ds.length := by
  have htake : (ds ++ s).takeWhile isDigit = ds := by
    rw [List.takeWhile_append_of_pos hds]
    cases s with
    | nil => exact List.append_nil ds
    | cons b t =>
      rw [List.takeWhile_cons_of_neg (Bool.eq_false_iff.1 (hs b t rfl)), List.append_nil]
  have hdrop : (ds ++ s).dropWhile isDigit = s := by
    rw [List.dropWhile_append_of_pos hds]
    cases s with
    | nil => rfl
    | cons b t => exact List.dropWhile_cons_of_neg (Bool.eq_false_iff.1 (hs b t rfl))
  intro p
  simp only [dropDigits, dropWhile_eq, htake, hdrop]

theorem takes_peekDigit_append {s : Bytes} (hs : NoDigit s) :
    Takes (peekDigit : Reader φ Bool) [] (ds ++ s) (!ds.isEmpty) := by
  have hnext : (ds ++ s).head?.any isDigit = !ds.isEmpty := by
    cases ds with
    | nil => exact hs.any_head?
    | cons b ds => exact hds b List.mem_cons_self
  rw [← hnext]
  exact takes_peekDigit _

/-- Digits are taken into a significand as long as it fits 64 bits, and the rest is left. -/
theorem exists_takeDigits (n : Nat) : ∃ ds₁ ds₂ n', ds = ds₁ ++ ds₂ ∧ ∀ s, NoDigit s →
    Takes (do takeDigits (← Reader.fuel) n : Reader φ (Nat × Nat)) ds₁ (ds₂ ++ s)
      (n', ds₁.length) := by
  change ∃ ds₁ ds₂ n', ds = ds₁ ++ ds₂ ∧ ∀ s, NoDigit s →
    Takes (fueled takeDigits n : Reader φ (Nat × Nat)) ds₁ (ds₂ ++ s) (n', ds₁.length)
  induction ds generalizing n with
  | nil =>
    refine ⟨[], [], n, rfl, fun s hs p => ?_⟩
    rw [loops_takeDigits.fueled_eq]
    cases s with
    | nil => rfl
    | cons b t =>
      rw [List.nil_append, List.nil_append, Reader.peek_bind_cons]
      simp only [digitStep, hs b t rfl, Bool.false_and, Bool.false_eq_true, if_false]
      rfl
  | cons b ds ih =>
    obtain ⟨hb, hds⟩ := List.forall_mem_cons.1 hds
    by_cases hfits : n * 10 + digitValue b < 0x10000000000000000
    · obtain ⟨ds₁, ds₂, n', rfl, htakes⟩ := ih hds (n * 10 + digitValue b)
      refine ⟨b :: ds₁, ds₂, n', rfl, fun s hs p => ?_⟩
      rw [loops_takeDigits.fueled_eq, List.cons_append, Reader.peek_bind_cons]
      simp only [digitStep, hb, hfits, decide_true, Bool.and_self, if_true]
      rw [Reader.drop_bind_cons, (htakes s hs).bind_apply]
      rfl
    · refine ⟨[], b :: ds, n, rfl, fun s _ p => ?_⟩
      rw [loops_takeDigits.fueled_eq, List.nil_append, List.cons_append, Reader.peek_bind_cons]
      simp only [digitStep, hfits, decide_false, Bool.and_false, Bool.false_eq_true, if_false]
      rfl

theorem exists_takeExponent (n : Nat) : ∃ ds₁ ds₂ o, ds = ds₁ ++ ds₂ ∧
    (∀ e, o = some e → ds₂ = []) ∧ ∀ s, NoDigit s →
      Takes (do takeExponent (← Reader.fuel) n : Reader φ (Option Nat)) ds₁ (ds₂ ++ s) o := by
  change ∃ ds₁ ds₂ o, ds = ds₁ ++ ds₂ ∧ (∀ e, o = some e → ds₂ = []) ∧ ∀ s, NoDigit s →
    Takes (fueled takeExponent n : Reader φ (Option Nat)) ds₁ (ds₂ ++ s) o
  induction ds generalizing n with
  | nil =>
    refine ⟨[], [], some n, rfl, fun _ _ => rfl, fun s hs p => ?_⟩
    rw [loops_takeExponent.fueled_eq]
    cases s with
    | nil => rfl
    | cons b t =>
      rw [List.nil_append, List.nil_append, Reader.peek_bind_cons]
      simp only [exponentStep, hs b t rfl, Bool.false_eq_true, if_false]
      rfl
  | cons b ds ih =>
    obtain ⟨hb, hds⟩ := List.forall_mem_cons.1 hds
    by_cases hfits : n * 10 + digitValue b < 0x80000000
    · obtain ⟨ds₁, ds₂, o, rfl, hall, htakes⟩ := ih hds (n * 10 + digitValue b)
      refine ⟨b :: ds₁, ds₂, o, rfl, hall, fun s hs p => ?_⟩
      rw [loops_takeExponent.fueled_eq, List.cons_append, Reader.peek_bind_cons]
      simp only [exponentStep, hb, if_true]
      rw [Reader.drop_bind_cons, if_pos hfits]
      exact htakes s hs (p.after b)
    · refine ⟨[b], ds, none, rfl, by simp, fun s _ p => ?_⟩
      rw [loops_takeExponent.fueled_eq, List.singleton_append, Reader.peek_bind_cons]
      simp only [exponentStep, hb, if_true]
      rw [Reader.drop_bind_cons, if_neg hfits]
      rfl

end Digits

/-! ### Parts of a number -/

section Parts

variable (minus : Bool) (n : Nat) (exponent : Int)

theorem settles_finishFloat : Settles (finishFloat minus n exponent : Reader φ Numeral) [] := by
  unfold finishFloat
  split
  · exact settles_pure _
  · exact settles_fail _ []

theorem settles_readExponentDigits (sign : Option UInt8) {ds : Bytes} (h : IsDigits ds) :
    Settles (readExponentDigits minus n exponent sign : Reader φ Numeral) ds := by
  obtain ⟨hne, hds⟩ := h
  obtain ⟨b, ds, rfl⟩ := List.exists_cons_of_ne_nil hne
  obtain ⟨hb, hds⟩ := List.forall_mem_cons.1 hds
  obtain ⟨ds₁, ds₂, o, rfl, hall, htakes⟩ := exists_takeExponent (φ := φ) hds (digitValue b)
  unfold readExponentDigits
  refine Settles.bind (t := [b]) (x := some b) (fun _ _ _ => rfl) ?_
  simp only [hb, Bool.not_true, Bool.false_eq_true, if_false]
  rw [← bind_assoc]
  cases o with
  | some e =>
    obtain rfl := hall e rfl
    exact Settles.bind (fun rest hrest => htakes rest hrest.noDigit) (settles_finishFloat _ _ _)
  | none =>
    refine Settles.bind (fun rest hrest => htakes rest hrest.noDigit) ?_
    simp only
    split
    · exact settles_fail _ _
    · have hds₂ : ∀ b ∈ ds₂, isDigit b = true := fun b hb => hds b (List.mem_append_right ds₁ hb)
      rw [← List.append_nil ds₂]
      exact Settles.bind (fun rest hrest => takes_dropDigits hds₂ hrest.noDigit) (settles_pure _)

theorem settles_readExponent (e : UInt8) {sign ds : Bytes}
    (hsign : sign = [] ∨ sign = [0x2B] ∨ sign = [0x2D]) (h : IsDigits ds) :
    Settles (readExponent minus n exponent : Reader φ Numeral) (e :: (sign ++ ds)) := by
  have hdigits : ∀ next, Settles (readExponentDigits minus n exponent next : Reader φ Numeral) ds :=
    fun next => settles_readExponentDigits minus n exponent next h
  rw [readExponent_eq]
  refine Settles.drop_bind ?_ e
  rcases hsign with rfl | rfl | rfl
  · obtain ⟨b, ds, rfl⟩ := List.exists_cons_of_ne_nil h.1
    have hb := h.2 b List.mem_cons_self
    have hplus : b ≠ 0x2B := ne_of_isDigit hb rfl
    have hminus : b ≠ 0x2D := ne_of_isDigit hb rfl
    refine Settles.look (x := some b) (fun _ _ _ => rfl) ?_
    simpa [hplus, hminus] using hdigits (some b)
  · exact Settles.look (x := some 0x2B) (fun _ _ _ => rfl) ((hdigits _).drop_bind _)
  · exact Settles.look (x := some 0x2D) (fun _ _ _ => rfl) ((hdigits _).drop_bind _)

variable {t : Bytes} (he : IsExponent t)

include he

theorem IsExponent.noDigit {rest : Bytes} (hrest : Ended rest) : NoDigit (t ++ rest) := by
  cases he with
  | none => exact hrest.noDigit
  | digits he => rcases he with rfl | rfl <;> exact noDigit_cons rfl _

theorem settles_exponent {m : Reader φ Numeral} (hend : Settles m []) :
    Settles (do if ← peekExponent then readExponent minus n exponent else m) t := by
  cases he with
  | none =>
    exact Settles.look (x := false) (fun rest hrest p => peekExponent_ended hrest p) hend
  | @digits e sign ds he hsign h =>
    refine Settles.look (x := true) (fun _ _ _ => ?_)
      (settles_readExponent minus n exponent e hsign h)
    rcases he with rfl | rfl <;> rfl

/-- No point comes next if the exponent does. -/
theorem settles_noPoint {m m' : Reader φ α} (h : Settles m' t) :
    Settles (do if (← Reader.peek) == some 0x2E then m else m') t := by
  obtain ⟨o, ho⟩ := h
  refine ⟨o, fun rest hrest => Takes.reads_bind (t := []) (takes_peek _) ?_⟩
  have hpoint : (t ++ rest).head? ≠ some 0x2E := by
    cases he with
    | none => cases rest with
      | nil => exact nofun
      | cons b s =>
        intro hb
        cases hb
        cases hrest 0x2E s rfl
    | digits he => rcases he with rfl | rfl <;> exact fun h => nomatch h
  rw [beq_false_of_ne hpoint]
  exact ho rest hrest

theorem settles_readAfterDigits :
    Settles (readAfterDigits minus n exponent : Reader φ Numeral) t :=
  settles_exponent minus n exponent he (settles_finishFloat minus n exponent)

theorem settles_readFraction {ds : Bytes} (h : IsDigits ds) :
    Settles (readFraction minus n exponent : Reader φ Numeral) (0x2E :: (ds ++ t)) := by
  obtain ⟨hne, hds⟩ := h
  obtain ⟨ds₁, ds₂, n', rfl, htakes⟩ := exists_takeDigits (φ := φ) hds n
  have hds₂ : ∀ b ∈ ds₂, isDigit b = true := fun b hb => hds b (List.mem_append_right ds₁ hb)
  unfold readFraction
  refine Settles.drop_bind ?_ 0x2E
  rw [← bind_assoc, List.append_assoc]
  have hsome : ¬ (decide (ds₁.length = 0) && !(!ds₂.isEmpty)) = true := by
    simpa using hne
  refine Settles.bind (x := (n', ds₁.length)) (fun rest hrest => ?_) ?_
  · rw [List.append_assoc]
    exact htakes _ (he.noDigit hrest)
  refine Settles.look (x := !ds₂.isEmpty) (fun rest hrest => ?_) ?_
  · rw [List.append_assoc]
    exact takes_peekDigit_append hds₂ (he.noDigit hrest)
  refine Settles.bind (fun rest hrest => takes_dropDigits hds₂ (he.noDigit hrest)) ?_
  simp only [if_neg hsome]
  exact settles_readAfterDigits minus n' _ he

variable {f : Bytes} (hf : IsFraction f)

include hf

theorem IsFraction.noDigit {rest : Bytes} (hrest : Ended rest) : NoDigit (f ++ t ++ rest) := by
  cases hf with
  | none => exact he.noDigit hrest
  | digits h => exact noDigit_cons rfl _

theorem settles_fraction {m : Reader φ Numeral} (hend : Settles m t) :
    Settles (do
      if (← Reader.peek) == some 0x2E then readFraction minus n exponent else m) (f ++ t) := by
  cases hf with
  | none => exact settles_noPoint he hend
  | digits h =>
    exact Settles.look (x := some 0x2E) (fun _ _ _ => rfl)
      (settles_readFraction minus n exponent he h)

theorem settles_readAfterInteger :
    Settles (readAfterInteger minus n : Reader φ Numeral) (f ++ t) := by
  rw [readAfterInteger_eq]
  exact settles_fraction minus n 0 he hf (settles_exponent minus n 0 he (settles_pure _))

end Parts

/-! ### Numbers -/

/-- **What a number comes to is settled by the number.** -/
theorem settles_readNumeral (minus : Bool) {ds : Bytes} (h : IsUnsigned ds) :
    Settles (readNumeral minus : Reader φ Numeral) ds := by
  cases h with
  | @mk whole f t hw hf he =>
    obtain ⟨⟨hne, hwhole⟩, hzero⟩ := hw
    obtain ⟨b, ds, rfl⟩ := List.exists_cons_of_ne_nil hne
    obtain ⟨hb, hds⟩ := List.forall_mem_cons.1 hwhole
    change Settles (readNumeral minus : Reader φ Numeral) ([b] ++ (ds ++ (f ++ t)))
    unfold readNumeral
    refine Settles.bind (x := some b) (fun _ _ _ => rfl) ?_
    simp only
    split
    · next hb =>
      -- after a leading zero the integer is over
      obtain rfl : ds = [] := (List.cons.inj (hzero (congrArg some hb))).2
      refine Settles.look (x := false) (fun rest hrest => ?_)
        (settles_readAfterInteger minus 0 he hf)
      have hlook := takes_peekDigit (φ := φ) (f ++ t ++ rest)
      rwa [(hf.noDigit he hrest).any_head?] at hlook
    -- some digits fit the integer that is built; if any are left over, a float is read
    · obtain ⟨ds₁, ds₂, n, rfl, htakes⟩ := exists_takeDigits (φ := φ) hds (digitValue b)
      have hds₂ : ∀ b ∈ ds₂, isDigit b = true :=
        fun b hb => hds b (List.mem_append_right ds₁ hb)
      rw [← bind_assoc, List.append_assoc]
      refine Settles.bind (x := (n, ds₁.length)) (fun rest hrest => ?_) ?_
      · rw [List.append_assoc]
        exact htakes _ (hf.noDigit he hrest)
      refine Settles.look (x := !ds₂.isEmpty) (fun rest hrest => ?_) ?_
      · rw [List.append_assoc]
        exact takes_peekDigit_append hds₂ (hf.noDigit he hrest)
      cases hmore : ds₂.isEmpty with
      | true =>
        obtain rfl := List.isEmpty_iff.1 hmore
        exact settles_readAfterInteger minus n he hf
      | false =>
        refine Settles.bind (fun rest hrest => takes_dropDigits hds₂ (hf.noDigit he hrest)) ?_
        exact settles_fraction minus n _ he hf (settles_readAfterDigits minus n _ he)

/-- What a text holds is what is read of it ahead of white space. -/
theorem toOption_parse {t w : Bytes} {o : Option Value} (hw : Blank w)
    (h : Reads (readRaw levels : Reader Empty Value) t w o) :
    (parse (t ++ w)).toOption = o.map Value.canonical := by
  have hread : Reads (readValue levels : Reader Empty Value) t w (o.map Value.canonical) :=
    h.map Value.canonical
  generalize o.map Value.canonical = o at hread
  cases o with
  | some v =>
    have hparse : parse (t ++ w) = .ok v :=
      readWhole_eq_ok.2 ⟨_, w, hread .start, hw.isBlank⟩
    rw [hparse]
    rfl
  | none =>
    cases hparse : parse (t ++ w) with
    | error e => rfl
    | ok v =>
      obtain ⟨q, t', hvalue, -⟩ := readWhole_eq_ok.1 hparse
      exact absurd hvalue (hread .start _)

/-- **A number is read as it is alone**, or refused as it is alone. -/
theorem reads_number {ds : Bytes} (h : IsNumber ds) (brackets : Bool → Reader Empty Value)
    {rest : Bytes} (hrest : Ended rest) :
    Reads (readScalarOr brackets) ds rest (parse ds).toOption := by
  have hsettled : ∃ o : Option Numeral, ∀ (brackets : Bool → Reader Empty Value) rest, Ended rest →
      Reads (readScalarOr brackets) ds rest (o.map Numeral.value) := by
    cases h with
    | minus h =>
      obtain ⟨o, ho⟩ := settles_readNumeral (φ := Empty) true h
      exact ⟨o, fun brackets rest hrest =>
        ((ho rest hrest).map Numeral.value).of_cons readScalarOr_minus⟩
    | plain h =>
      obtain ⟨o, ho⟩ := settles_readNumeral (φ := Empty) false h
      obtain ⟨⟨⟨hne, hwhole⟩, -⟩, -, -⟩ := h
      obtain ⟨b, ds, rfl⟩ := List.exists_cons_of_ne_nil hne
      exact ⟨o, fun brackets rest hrest => ((ho rest hrest).map Numeral.value).congr_cons
        (readScalarOr_digit (hwhole b List.mem_cons_self))⟩
  obtain ⟨o, ho⟩ := hsettled
  have halone := toOption_parse (w := []) nofun (ho _ [] ended_nil)
  have hvalue : Value.canonical ∘ Numeral.value = Numeral.value := by
    funext n
    cases n <;> rfl
  rw [List.append_nil, Option.map_map, hvalue] at halone
  rw [halone]
  exact ho brackets rest hrest

end IndexFeed.Json
