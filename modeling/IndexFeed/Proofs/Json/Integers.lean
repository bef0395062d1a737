import IndexFeed.Json.Printer
import IndexFeed.Proofs.Json.Reading

/-!
# Printed integers

The digits of a number that 64 bits hold are taken into the significand one by one and spell the
number again (`takes_takeDigits`), so that a whole number is read back ahead of anything that
does not go on with it (`takes_readNumeral`).
-/

namespace IndexFeed.Json

open Text (Bytes)

variable {φ : Type}

section Negative

variable {n : Nat} (h : 0 < n ∧ n ≤ 0x8000000000000000)

include h

theorem neg_lower : -0x8000000000000000 ≤ -(n : Int) := by omega

theorem neg_upper : -(n : Int) < 0 := by omega

end Negative

/-- A whole number of 64 bits as it is read, a float if it has a minus that the integers do not
reach. -/
def Numeral.ofWhole (minus : Bool) (n : Nat) : Numeral :=
  if minus then
    if h : 0 < n ∧ n ≤ 0x8000000000000000 then .negative (-n) (neg_lower h) (neg_upper h)
    else .float (-Float.ofNat n)
  else if h : n < 0x10000000000000000 then .natural n h
  else .float (Float.ofNat n)

abbrev digitByte (c : Char) : UInt8 := UInt8.ofNat c.toNat

section Digit

variable {c : Char} (h : c.isDigit = true)

include h

theorem toNat_digitByte : (digitByte c).toNat = c.toNat ∧ 48 ≤ c.toNat ∧ c.toNat ≤ 57 := by
  obtain ⟨hlow, hhigh⟩ := Char.isDigit_iff_toNat.1 h
  have hnine : '9'.toNat = 57 := rfl
  refine ⟨?_, hlow, hhigh⟩
  rw [digitByte, UInt8.toNat_ofNat', Nat.mod_eq_of_lt (by omega)]

theorem isDigit_digitByte : isDigit (digitByte c) = true := by
  obtain ⟨hval, hlow, hhigh⟩ := toNat_digitByte h
  have hbounds : 0x30 ≤ digitByte c ∧ digitByte c ≤ 0x39 := by
    rw [UInt8.le_iff_toNat_le, UInt8.le_iff_toNat_le, hval]
    exact ⟨hlow, hhigh⟩
  simp [isDigit, hbounds]

theorem digitValue_digitByte : digitValue (digitByte c) = c.toNat - '0'.toNat := by
  rw [digitValue, (toNat_digitByte h).1]
  rfl

end Digit

theorem isDigit_of_not_goesOn {b : UInt8} (h : goesOn b = false) : isDigit b = false := by
  simp only [goesOn, Bool.or_eq_false_iff] at h
  exact h.1.1.1

theorem Ended.isDigit_head {rest : Bytes} (h : Ended rest) {b : UInt8} {t : Bytes}
    (hrest : rest = b :: t) : isDigit b = false :=
  isDigit_of_not_goesOn (h b t hrest)

/-! ### Digits -/

theorem le_ofDigitChars (cs : List Char) (n : Nat) : n ≤ Nat.ofDigitChars 10 cs n := by
  induction cs generalizing n with
  | nil => exact Nat.le_refl n
  | cons c cs ih =>
    rw [Nat.ofDigitChars_cons]
    have hnext := ih (10 * n + (c.toNat - '0'.toNat))
    omega

/-- **Digits are taken into the significand** while what they spell fits 64 bits. -/
theorem takes_takeDigits {cs : List Char} {n : Nat} {fuel rest : Bytes}
    (hdigits : ∀ c ∈ cs, c.isDigit = true) (hfuel : cs.length < fuel.length)
    (hfits : Nat.ofDigitChars 10 cs n < 0x10000000000000000) (hrest : Ended rest) :
    Reader.Takes (takeDigits fuel n : Reader φ (Nat × Nat)) (ascii cs) rest
      (Nat.ofDigitChars 10 cs n, cs.length) := by
  induction cs generalizing n fuel with
  | nil => cases fuel with
    | nil => cases hfuel
    | cons x fuel =>
      intro p
      cases rest with
      | nil => rfl
      | cons b t =>
        rw [takeDigits, ascii, List.map_nil, List.nil_append, Reader.peek_bind_cons]
        simp only [hrest.isDigit_head rfl, Bool.false_and]
        rfl
  | cons c cs ih => cases fuel with
    | nil => cases hfuel
    | cons x fuel =>
      obtain ⟨hc, hcs⟩ := List.forall_mem_cons.1 hdigits
      rw [Nat.ofDigitChars_cons, ← digitValue_digitByte hc, Nat.mul_comm] at hfits
      have hnext : n * 10 + digitValue (digitByte c) < 0x10000000000000000 :=
        Nat.lt_of_le_of_lt (le_ofDigitChars cs _) hfits
      have htake := ih hcs (Nat.lt_of_succ_lt_succ hfuel) hfits
      intro p
      rw [takeDigits, ascii, List.map_cons, List.cons_append, Reader.peek_bind_cons]
      simp only [isDigit_digitByte hc, hnext, decide_true, Bool.and_self, if_true]
      rw [Reader.drop_bind_cons, ← ascii, htake.bind_apply, Nat.ofDigitChars_cons,
        ← digitValue_digitByte hc, Nat.mul_comm]
      rfl

theorem exists_toDigits (n : Nat) : ∃ c cs, Nat.toDigits 10 n = c :: cs ∧
    (∀ d ∈ c :: cs, d.isDigit = true) ∧ (c = '0' → n = 0 ∧ cs = []) := by
  induction n using Nat.strongRecOn with
  | _ n ih =>
    have hdigits : ∀ d ∈ Nat.toDigits 10 n, d.isDigit = true :=
      fun d hd => Nat.isDigit_of_mem_toDigits (by decide) (by decide) hd
    rcases Nat.lt_or_ge n 10 with hlt | hge
    · rw [Nat.toDigits_of_lt_base hlt] at hdigits ⊢
      have hzero : ∀ m < 10, m.digitChar = '0' → m = 0 := by decide
      exact ⟨_, _, rfl, hdigits, fun h => ⟨hzero n hlt h, rfl⟩⟩
    · obtain ⟨c, cs, hcs, -, hfirst⟩ := ih (n / 10) (by omega)
      rw [Nat.toDigits_of_base_le (by decide) hge, hcs] at hdigits ⊢
      exact ⟨_, _, rfl, hdigits, fun h => absurd (hfirst h).1 (by omega)⟩

/-! ### Integers -/

theorem readAfterInteger_eq (minus : Bool) (n : Nat) :
    (readAfterInteger minus n : Reader φ Numeral) = (do
      if (← Reader.peek) == some 0x2E then readFraction minus n 0
      else if ← peekExponent then readExponent minus n 0
      else return .ofWhole minus n) := by
  have hwhole : (if minus then
      if h : 0 < n ∧ n ≤ 0x8000000000000000 then
        return .negative (-n) (neg_lower h) (neg_upper h)
      else return .float (-Float.ofNat n)
      else if h : n < 0x10000000000000000 then return .natural n h
      else return .float (Float.ofNat n) : Reader φ Numeral) = pure (.ofWhole minus n) := by
    unfold Numeral.ofWhole
    split
    · split <;> rfl
    · split <;> rfl
  rw [readAfterInteger, hwhole]

section Integer

variable {n : Nat} {rest : Bytes} (hrest : Ended rest)

include hrest

theorem peekDigit_ended (p : Position) :
    (peekDigit : Reader φ Bool) ⟨p, rest⟩ = .ok (false, ⟨p, rest⟩) := by
  cases hr : rest with
  | nil => rfl
  | cons b t =>
    rw [peekDigit, Reader.peek_bind_cons]
    simp [hrest.isDigit_head hr]

theorem peekExponent_ended (p : Position) :
    (peekExponent : Reader φ Bool) ⟨p, rest⟩ = .ok (false, ⟨p, rest⟩) := by
  cases rest with
  | nil => rfl
  | cons b t =>
    have hb := hrest b t rfl
    simp only [goesOn, Bool.or_eq_false_iff] at hb
    rw [peekExponent, Reader.peek_bind_cons]
    simp [hb.1.2, hb.2]

theorem readAfterInteger_ended (minus : Bool) (p : Position) :
    (readAfterInteger minus n : Reader φ Numeral) ⟨p, rest⟩ =
      .ok (.ofWhole minus n, ⟨p, rest⟩) := by
  rw [readAfterInteger_eq]
  cases rest with
  | nil => rfl
  | cons b t =>
    have hpoint : (some b == some 0x2E) = false := by
      have hb := hrest b t rfl
      simp only [goesOn, Bool.or_eq_false_iff] at hb
      exact hb.1.1.2
    rw [Reader.peek_bind_cons]
    simp only [hpoint, Bool.false_eq_true, if_false]
    rw [Reader.bind_of_ok _ (peekExponent_ended hrest p)]
    rfl

/-- **A whole number is read back from its digits**, after its minus if it has one. -/
theorem takes_readNumeral (hn : n < 0x10000000000000000) (minus : Bool) :
    Reader.Takes (readNumeral minus : Reader φ Numeral) (printNat n) rest (.ofWhole minus n) := by
  intro p
  obtain ⟨c, cs, hcs, hdigits, hfirst⟩ := exists_toDigits n
  obtain ⟨hc, htail⟩ := List.forall_mem_cons.1 hdigits
  -- the first digit has been taken before the loop starts with its value
  have hspelt : Nat.ofDigitChars 10 cs (digitValue (digitByte c)) = n := by
    have hall : Nat.ofDigitChars 10 (c :: cs) 0 = n := hcs ▸ Nat.ofDigitChars_ten_toDigits
    rwa [Nat.ofDigitChars_cons, Nat.mul_zero, Nat.zero_add, ← digitValue_digitByte hc] at hall
  rw [printNat, hcs, readNumeral, ascii, List.map_cons, List.cons_append, Reader.take_bind_cons]
  by_cases hzero : c = '0'
  · obtain ⟨rfl, rfl⟩ := hfirst hzero
    subst hzero
    have hbyte : digitByte '0' = 0x30 := rfl
    simp only [hbyte, if_true, List.map_nil, List.nil_append]
    rw [Reader.bind_of_ok _ (peekDigit_ended hrest _)]
    exact readAfterInteger_ended hrest minus _
  · have hbyte : digitByte c ≠ 0x30 := by
      intro h
      have hval := (toNat_digitByte hc).1
      rw [h] at hval
      exact hzero (Char.toNat_inj.1 hval.symm)
    have htake : Reader.Takes
        (takeDigits (0 :: (ascii cs ++ rest)) (digitValue (digitByte c)) : Reader φ (Nat × Nat))
        (ascii cs) rest (n, cs.length) := by
      have hfuel : cs.length < (0 :: (ascii cs ++ rest)).length := by
        simp only [ascii, List.length_cons, List.length_append, List.length_map]
        omega
      have h := takes_takeDigits (φ := φ) htail hfuel (hspelt.symm ▸ hn) hrest
      rwa [hspelt] at h
    simp only [if_neg hbyte, isDigit_digitByte hc, if_true]
    rw [Reader.fuel_bind, ← ascii, htake.bind_apply]
    simp only
    rw [Reader.bind_of_ok _ (peekDigit_ended hrest _)]
    exact readAfterInteger_ended hrest minus _

end Integer

end IndexFeed.Json
