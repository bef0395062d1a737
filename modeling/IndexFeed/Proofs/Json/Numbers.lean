import IndexFeed.Proofs.Json.Integers

/-!
# Numbers within texts

Where a number ends is decided by the byte after it, and all bytes that do not go on with a number
decide it alike. So the readers of numbers are steady (`steadyAt_readNumeral`): a number that is
read on its own is read the same ahead of anything else. What the loops over digits have in common
is said once (`Loops`): the bound for the steps of a loop is no matter to what it gives, and a loop
is steady if its steps are.
-/

namespace IndexFeed.Json

open Text (Bytes)
open Reader (SteadyAt steadyAt_pure steadyAt_of_ne_ok)

variable {φ : Type}

/-- What is left of an exponent part after its sign. -/
def readExponentDigits (minus : Bool) (significand : Nat) (before : Int) (sign : Option UInt8) :
    Reader φ Numeral := do
  match ← Reader.take with
  | none => .fail .endInValue
  | some b =>
    if !isDigit b then .fail .invalidNumber
    else
      match ← takeExponent (← Reader.fuel) (digitValue b) with
      | some e =>
        finishFloat minus significand (if sign == some 0x2D then before - e else before + e)
      | none =>
        if significand ≠ 0 ∧ sign ≠ some 0x2D then .fail .numberOutOfRange
        else
          let _ ← dropDigits
          return .float (if minus then -0.0 else 0.0)

theorem readExponent_eq (minus : Bool) (significand : Nat) (before : Int) :
    (readExponent minus significand before : Reader φ Numeral) = (do
      Reader.drop
      let sign ← Reader.peek
      if sign == some 0x2B || sign == some 0x2D then
        Reader.drop
        readExponentDigits minus significand before sign
      else readExponentDigits minus significand before sign) := rfl

/-! ### Digits -/

theorem dropWhile_eq (q : UInt8 → Bool) (p : Position) (t : Bytes) :
    (⟨p, t⟩ : Input).dropWhile q = ⟨p.past (t.takeWhile q), t.dropWhile q⟩ := by
  rw [Input.dropWhile]
  induction t generalizing p with
  | nil => rfl
  | cons b t ih =>
    cases hb : q b with
    | false => simp [Input.dropWhile.go, hb, Position.past]
    | true =>
      rw [Input.dropWhile.go, if_pos hb, ih, List.takeWhile_cons_of_pos hb,
        List.dropWhile_cons_of_pos hb]
      rfl

section Ended

variable {rest : Bytes} (hrest : Ended rest)

include hrest

theorem takeWhile_append_ended (t : Bytes) :
    (t ++ rest).takeWhile isDigit = t.takeWhile isDigit := by
  induction t with
  | nil => cases hr : rest with
    | nil => rfl
    | cons b s => simp [hrest.isDigit_head hr]
  | cons b t ih => cases hb : isDigit b <;> simp [hb, ih]

theorem dropWhile_append_ended (t : Bytes) :
    (t ++ rest).dropWhile isDigit = t.dropWhile isDigit ++ rest := by
  induction t with
  | nil => cases hr : rest with
    | nil => rfl
    | cons b s => simp [hrest.isDigit_head hr]
  | cons b t ih => cases hb : isDigit b <;> simp [hb, ih]

end Ended

/-! ### Loops over digits -/

/-- A loop with steps enough for all that is left. -/
def fueled {α : Type} (loop : Bytes → Nat → Reader φ α) (n : Nat) : Reader φ α := do
  loop (← Reader.fuel) n

/-- A loop that does what `step` says of the next byte. It may go on, but not without dropping that
byte. -/
structure Loops {α : Type} (step : (Nat → Reader φ α) → Nat → Option UInt8 → Reader φ α)
    (loop : Bytes → Nat → Reader φ α) : Prop where
  cons (b : UInt8) (fuel : Bytes) (n : Nat) :
    loop (b :: fuel) n = Reader.peek >>= step (loop fuel) n
  ends (next next' : Nat → Reader φ α) (n : Nat) : step next n none = step next' n none
  goes {next next' : Nat → Reader φ α} {b : UInt8} {p : Position} {t : Bytes}
    (h : ∀ n, next n ⟨p.after b, t⟩ = next' n ⟨p.after b, t⟩) (n : Nat) :
    step next n (some b) ⟨p, b :: t⟩ = step next' n (some b) ⟨p, b :: t⟩

namespace Loops

variable {α : Type} {step : (Nat → Reader φ α) → Nat → Option UInt8 → Reader φ α}
  {loop : Bytes → Nat → Reader φ α}

/-- What a loop gives does not depend on the bound for its steps, if that exceeds the text. -/
theorem bound_irrelevant (h : Loops step loop) {fuel fuel' t : Bytes}
    (hfuel : t.length < fuel.length) (hfuel' : t.length < fuel'.length) (n : Nat) (p : Position) :
    loop fuel n ⟨p, t⟩ = loop fuel' n ⟨p, t⟩ := by
  induction t generalizing fuel fuel' n p with
  | nil =>
    obtain ⟨b, fuel, rfl⟩ := List.exists_cons_of_length_pos hfuel
    obtain ⟨b', fuel', rfl⟩ := List.exists_cons_of_length_pos hfuel'
    rw [h.cons, h.cons, Reader.peek_bind_nil, Reader.peek_bind_nil, h.ends]
  | cons c t ih =>
    obtain ⟨b, fuel, rfl⟩ := List.exists_cons_of_length_pos (Nat.zero_lt_of_lt hfuel)
    obtain ⟨b', fuel', rfl⟩ := List.exists_cons_of_length_pos (Nat.zero_lt_of_lt hfuel')
    rw [h.cons, h.cons, Reader.peek_bind_cons, Reader.peek_bind_cons]
    exact h.goes (fun n => ih (Nat.lt_of_succ_lt_succ hfuel) (Nat.lt_of_succ_lt_succ hfuel') n _) n

theorem fueled_eq (h : Loops step loop) (n : Nat) :
    fueled loop n = Reader.peek >>= step (fueled loop) n := by
  funext ⟨p, t⟩
  cases t with
  | nil =>
    have hopen : fueled loop n ⟨p, []⟩ = loop [0] n ⟨p, []⟩ := rfl
    rw [hopen, h.cons, Reader.peek_bind_nil, Reader.peek_bind_nil, h.ends]
  | cons b t =>
    have hopen : fueled loop n ⟨p, b :: t⟩ = loop (0 :: b :: t) n ⟨p, b :: t⟩ := rfl
    have hnext : ∀ n, loop (b :: t) n ⟨p.after b, t⟩ = fueled loop n ⟨p.after b, t⟩ := fun n =>
      h.bound_irrelevant (Nat.lt_succ_self _) (Nat.lt_succ_self _) n _
    rw [hopen, h.cons, Reader.peek_bind_cons, Reader.peek_bind_cons]
    exact h.goes hnext n

/-- A loop is steady if it ends the same at the end of the text and ahead of all that ends a number,
and if a step is steady that goes on with something steady. -/
theorem steadyAt (h : Loops step loop)
    (hnone : ∀ next n, SteadyAt (step next n none) [])
    (hend : ∀ next n b, goesOn b = false → step next n (some b) = step next n none)
    (hsome : ∀ next b t, (∀ n, SteadyAt (next n) t) → ∀ n, SteadyAt (step next n (some b)) (b :: t))
    (n : Nat) (t : Bytes) : SteadyAt (fueled loop n) t := by
  induction t generalizing n with
  | nil =>
    rw [h.fueled_eq]
    exact SteadyAt.peek_bind_nil (hnone _ n) (hend _ n)
  | cons b t ih =>
    rw [h.fueled_eq]
    exact SteadyAt.peek_bind_cons (hsome _ b t ih n)

end Loops

/-- What the loop over the digits of a significand does with the next byte. -/
def digitStep (next : Nat → Reader φ (Nat × Nat)) (n : Nat) : Option UInt8 → Reader φ (Nat × Nat)
  | some b =>
    if isDigit b && n * 10 + digitValue b < 0x10000000000000000 then do
      Reader.drop
      let (n, count) ← next (n * 10 + digitValue b)
      return (n, count + 1)
    else return (n, 0)
  | none => return (n, 0)

/-- What the loop over the digits of an exponent does with the next byte. -/
def exponentStep (next : Nat → Reader φ (Option Nat)) (n : Nat) :
    Option UInt8 → Reader φ (Option Nat)
  | some b =>
    if isDigit b then do
      Reader.drop
      if n * 10 + digitValue b < 0x80000000 then next (n * 10 + digitValue b) else return none
    else return some n
  | none => return some n

theorem loops_takeDigits : Loops digitStep (takeDigits : Bytes → Nat → Reader φ (Nat × Nat)) where
  cons _ _ _ := rfl
  ends _ _ _ := rfl
  goes h n := by
    simp only [digitStep]
    split
    · rw [Reader.drop_bind_cons, Reader.drop_bind_cons]
      exact Reader.bind_congr_left (h _)
    · rfl

theorem loops_takeExponent :
    Loops exponentStep (takeExponent : Bytes → Nat → Reader φ (Option Nat)) where
  cons _ _ _ := rfl
  ends _ _ _ := rfl
  goes h n := by
    simp only [exponentStep]
    split
    · rw [Reader.drop_bind_cons, Reader.drop_bind_cons]
      split
      · exact h _
      · rfl
    · rfl

theorem steadyAt_takeDigits (n : Nat) (t : Bytes) :
    SteadyAt (do takeDigits (← Reader.fuel) n : Reader φ (Nat × Nat)) t := by
  refine loops_takeDigits.steadyAt (fun _ n => steadyAt_pure (n, 0) []) (fun next n b hb => ?_)
    (fun next b t ih n => ?_) n t
  · simp only [digitStep, isDigit_of_not_goesOn hb, Bool.false_and, Bool.false_eq_true, if_false]
  · simp only [digitStep]
    split
    · exact SteadyAt.drop_bind ((ih _).bind fun _ t' => steadyAt_pure _ t')
    · exact steadyAt_pure _ _

theorem steadyAt_takeExponent (n : Nat) (t : Bytes) :
    SteadyAt (do takeExponent (← Reader.fuel) n : Reader φ (Option Nat)) t := by
  refine loops_takeExponent.steadyAt (fun _ n => steadyAt_pure (some n) [])
    (fun next n b hb => ?_) (fun next b t ih n => ?_) n t
  · simp only [exponentStep, isDigit_of_not_goesOn hb, Bool.false_eq_true, if_false]
  · simp only [exponentStep]
    split
    · refine SteadyAt.drop_bind ?_
      split
      · exact ih _
      · exact steadyAt_pure _ _
    · exact steadyAt_pure _ _

theorem steadyAt_dropDigits (t : Bytes) : SteadyAt (dropDigits : Reader φ Nat) t := by
  intro p x q t' h
  simp only [dropDigits, dropWhile_eq] at h
  cases h
  refine ⟨t.takeWhile isDigit, List.takeWhile_append_dropWhile.symm, fun rest hrest p' => ?_⟩
  rw [← List.append_assoc, List.takeWhile_append_dropWhile]
  simp only [dropDigits, dropWhile_eq, takeWhile_append_ended hrest, dropWhile_append_ended hrest]

/-! ### Parts of a number -/

section Parts

variable (minus : Bool) (n : Nat) (exponent : Int)

theorem steadyAt_fail {α : Type} (what : Problem) (t : Bytes) :
    SteadyAt (Reader.fail what : Reader φ α) t :=
  steadyAt_of_ne_ok fun _ _ h => nomatch h

theorem steadyAt_finishFloat (t : Bytes) :
    SteadyAt (finishFloat minus n exponent : Reader φ Numeral) t := by
  unfold finishFloat
  split
  · exact steadyAt_pure _ t
  · exact steadyAt_fail _ t

theorem steadyAt_readExponentDigits (sign : Option UInt8) (t : Bytes) :
    SteadyAt (readExponentDigits minus n exponent sign : Reader φ Numeral) t := by
  unfold readExponentDigits
  cases t with
  | nil => exact steadyAt_of_ne_ok fun _ _ h => nomatch h
  | cons b t =>
    refine SteadyAt.take_bind ?_
    simp only
    split
    · exact steadyAt_fail _ t
    · rw [← bind_assoc]
      refine (steadyAt_takeExponent (digitValue b) t).bind fun e t' => ?_
      cases e with
      | some e => exact steadyAt_finishFloat minus n _ t'
      | none =>
        simp only
        split
        · exact steadyAt_fail _ t'
        · exact (steadyAt_dropDigits t').bind fun _ t'' => steadyAt_pure _ t''

theorem steadyAt_readExponent (b : UInt8) (t : Bytes) :
    SteadyAt (readExponent minus n exponent : Reader φ Numeral) (b :: t) := by
  rw [readExponent_eq]
  refine SteadyAt.drop_bind ?_
  cases t with
  | nil => exact steadyAt_of_ne_ok fun _ _ h => nomatch h
  | cons c t =>
    refine SteadyAt.peek_bind_cons ?_
    split
    · exact SteadyAt.drop_bind (steadyAt_readExponentDigits minus n exponent _ t)
    · exact steadyAt_readExponentDigits minus n exponent _ (c :: t)

section Tests

variable {α : Type} {f : Bool → Reader φ α} {t : Bytes}

theorem steadyAt_peekDigit_bind (hyes : ∀ b s, t = b :: s → SteadyAt (f true) (b :: s))
    (hno : SteadyAt (f false) t) : SteadyAt (peekDigit >>= f) t := by
  exact SteadyAt.test_bind (q := isDigit) (fun b hb => isDigit_of_not_goesOn hb) hyes hno

theorem steadyAt_peekPoint {m m' : Reader φ α}
    (hyes : ∀ b s, t = b :: s → SteadyAt m (b :: s)) (hno : SteadyAt m' t) :
    SteadyAt (do if (← Reader.peek) == some 0x2E then m else m') t := by
  have hany : ∀ next : Option UInt8, (next == some 0x2E) = next.any (· == 0x2E) := by
    intro next
    cases next <;> rfl
  simp only [hany]
  refine SteadyAt.test_bind (f := fun b => if b = true then m else m') (fun b hb => ?_) hyes hno
  simp only [goesOn, Bool.or_eq_false_iff] at hb
  exact hb.1.1.2

theorem steadyAt_peekExponent_bind (hyes : ∀ b s, t = b :: s → SteadyAt (f true) (b :: s))
    (hno : SteadyAt (f false) t) : SteadyAt (peekExponent >>= f) t := by
  refine SteadyAt.test_bind (q := fun b => b == 0x65 || b == 0x45) (fun b hb => ?_) hyes hno
  simp only [goesOn, Bool.or_eq_false_iff] at hb
  rw [hb.1.2, hb.2, Bool.or_self]

end Tests

theorem steadyAt_readAfterDigits (t : Bytes) :
    SteadyAt (readAfterDigits minus n exponent : Reader φ Numeral) t := by
  refine steadyAt_peekExponent_bind (fun b s _ => ?_) ?_
  · exact steadyAt_readExponent minus n exponent b s
  · exact steadyAt_finishFloat minus n exponent t

theorem steadyAt_readFraction (b : UInt8) (t : Bytes) :
    SteadyAt (readFraction minus n exponent : Reader φ Numeral) (b :: t) := by
  unfold readFraction
  refine SteadyAt.drop_bind ?_
  rw [← bind_assoc]
  refine (steadyAt_takeDigits n t).bind fun out t' => ?_
  obtain ⟨n', count⟩ := out
  have hrest : ∀ (more : Bool) (t' : Bytes), SteadyAt (do
      let _ ← dropDigits
      if count = 0 && !more then
        if (← Reader.peek).isSome then .failPeek .invalidNumber else .failPeek .endInValue
      else readAfterDigits minus n' (exponent - count) : Reader φ Numeral) t' := by
    intro more t'
    refine (steadyAt_dropDigits t').bind fun _ t'' => ?_
    split
    · refine steadyAt_of_ne_ok fun p out h => ?_
      cases t'' <;> cases h
    · exact steadyAt_readAfterDigits minus n' _ t''
  exact steadyAt_peekDigit_bind (fun b s _ => hrest true (b :: s)) (hrest false t')

theorem steadyAt_readAfterInteger (t : Bytes) :
    SteadyAt (readAfterInteger minus n : Reader φ Numeral) t := by
  rw [readAfterInteger_eq]
  refine steadyAt_peekPoint (fun b s _ => ?_) ?_
  · exact steadyAt_readFraction minus n 0 b s
  · refine steadyAt_peekExponent_bind (fun b s _ => ?_) ?_
    · exact steadyAt_readExponent minus n 0 b s
    · exact steadyAt_pure _ t

end Parts

/-- **The reader of numbers is steady.** -/
theorem steadyAt_readNumeral (minus : Bool) (t : Bytes) :
    SteadyAt (readNumeral minus : Reader φ Numeral) t := by
  unfold readNumeral
  cases t with
  | nil => exact steadyAt_of_ne_ok fun _ _ h => nomatch h
  | cons b t =>
    refine SteadyAt.take_bind ?_
    simp only
    split
    · refine steadyAt_peekDigit_bind (fun c s _ => ?_) ?_
      · exact steadyAt_of_ne_ok fun _ _ h => nomatch h
      · exact steadyAt_readAfterInteger minus 0 t
    split
    · rw [← bind_assoc]
      refine (steadyAt_takeDigits (digitValue b) t).bind fun out t' => ?_
      obtain ⟨n, count⟩ := out
      refine steadyAt_peekDigit_bind (fun c s _ => ?_) ?_
      · refine (steadyAt_dropDigits (c :: s)).bind fun count t'' => ?_
        refine steadyAt_peekPoint (fun d s' _ => ?_) ?_
        · exact steadyAt_readFraction minus n count d s'
        · exact steadyAt_readAfterDigits minus n count t''
      · exact steadyAt_readAfterInteger minus n t'
    · exact steadyAt_fail _ t

end IndexFeed.Json
