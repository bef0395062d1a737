import IndexFeed.Proofs.Json.Spelling
import IndexFeed.Proofs.Json.Strings

/-!
# Spelled strings

A character is read from each of its spellings: as its bytes, none of which is a control, a quote or
a backslash, or from an escape (`takes_spelledChar`). So a string is read from any of its spellings
(`takes_spelledName`, `takes_spelledText`).
-/

namespace IndexFeed.Json

open Text (Bytes)

variable {φ : Type}

/-! ### Escapes -/

theorem encodeChar_eq_singleton {c : Char} {b : UInt8} (hb : b < 0x80) (hc : c.toNat = b.toNat) :
    Text.encodeChar c = [b] := by
  have hlt : b.toNat < 0x80 := UInt8.lt_iff_toNat_lt.1 hb
  rw [← Char.ofNat_toNat c, hc, Text.encodeChar_ascii _ hlt, UInt8.ofNat_toNat]

theorem escapeLetter?_lt {l b : UInt8} (hl : escapeLetter? l = some b) : b < 0x80 := by
  unfold escapeLetter? at hl
  split at hl
  · next h =>
    simp only [Bool.or_eq_true, decide_eq_true_eq] at h
    cases hl
    rcases h with (rfl | rfl) | rfl <;> decide
  all_goals
    repeat' split at hl
    all_goals first | cases hl; decide | cases hl

theorem takes_expectInPair (b : UInt8) (rest : Bytes) :
    Reader.Takes (expectInPair b : Reader φ Unit) [b] rest () := by
  intro p
  rw [expectInPair, List.singleton_append, Reader.peek_bind_cons]
  simp only [if_true]
  rfl

theorem takes_readEscape_pair {x y z u x' y' z' u' : UInt8} {lead trail : Nat}
    (hl : hexFour? x y z u = some lead) (ht : hexFour? x' y' z' u' = some trail)
    (hlead : 0xD800 ≤ lead ∧ lead ≤ 0xDBFF) (htrail : 0xDC00 ≤ trail ∧ trail ≤ 0xDFFF)
    (rest : Bytes) :
    Reader.Takes (readEscape : Reader φ Bytes)
      [0x75, x, y, z, u, 0x5C, 0x75, x', y', z', u'] rest
      (Text.encodeChar (Char.ofNat ((lead - 0xD800) * 0x400 + (trail - 0xDC00) + 0x10000))) := by
  have hfirst : ¬ (0xDC00 ≤ lead ∧ lead ≤ 0xDFFF) := by omega
  have hboth : ¬ (lead < 0xD800 ∨ 0xDBFF < lead) := by omega
  have hsecond : ¬ (trail < 0xDC00 ∨ 0xDFFF < trail) := by omega
  have hpoint : Reader.Takes (readCodePoint : Reader φ Char)
      ([x, y, z, u] ++ ([0x5C] ++ ([0x75] ++ [x', y', z', u']))) rest
      (Char.ofNat ((lead - 0xD800) * 0x400 + (trail - 0xDC00) + 0x10000)) := by
    refine (takes_readHex hl _).bind ?_
    simp only [Bool.and_eq_true, Bool.or_eq_true, decide_eq_true_eq, if_neg hfirst, if_neg hboth]
    refine (takes_expectInPair 0x5C _).bind ((takes_expectInPair 0x75 _).bind fun p => ?_)
    rw [(takes_readHex ht rest).bind_apply]
    simp only [if_neg hsecond]
    rfl
  intro p
  rw [readEscape, List.cons_append, Reader.take_bind_cons]
  simp only [if_true]
  exact hpoint.bind_apply _ _

/-! ### Characters -/

theorem plain_of_mem_encodeChar {c : Char} (hcontrol : 0x20 ≤ c.toNat) (hquote : c ≠ '"')
    (hslash : c ≠ '\\') : ∀ b ∈ Text.encodeChar c, ¬ b < 0x20 ∧ b ≠ 0x22 ∧ b ≠ 0x5C := by
  intro b hb
  have hself : ∀ n < 0x80, b = UInt8.ofNat n → c = Char.ofNat n := by
    -- a byte of the ASCII range is all of the character
    rintro n hn rfl
    have hascii : UInt8.ofNat n < 0x80 := by
      rw [UInt8.lt_iff_toNat_lt, UInt8.toNat_ofNat_of_lt' (show _ < 256 by omega)]
      exact hn
    exact Text.encodeChar_injective
      ((Text.eq_of_mem_encodeChar hascii hb).trans (Text.encodeChar_ascii n hn).symm)
  refine ⟨fun hlt => ?_, fun h => hquote (hself 0x22 (by decide) h),
    fun h => hslash (hself 0x5C (by decide) h)⟩
  have hval : b.toNat < 0x20 := UInt8.lt_iff_toNat_lt.1 hlt
  have hsmall : ∀ n < 0x20, (Char.ofNat n).toNat = n := by decide
  rw [hself b.toNat (by omega) UInt8.ofNat_toNat.symm, hsmall _ hval] at hcontrol
  omega

theorem takes_plain {bs : Bytes} (h : ∀ b ∈ bs, ¬ b < 0x20 ∧ b ≠ 0x22 ∧ b ≠ 0x5C) {fuel : Bytes}
    (hfuel : bs.length ≤ fuel.length) {t rest x : Bytes}
    (ht : Reader.Takes (readStringBytes (fuel.drop bs.length) : Reader φ Bytes) t rest x) :
    Reader.Takes (readStringBytes fuel : Reader φ Bytes) (bs ++ t) rest (bs ++ x) := by
  induction bs generalizing fuel with
  | nil => exact ht
  | cons b bs ih =>
    obtain ⟨y, fuel, rfl⟩ := List.exists_cons_of_length_pos (Nat.zero_lt_of_lt hfuel)
    obtain ⟨⟨hcontrol, hquote, hslash⟩, hbs⟩ := List.forall_mem_cons.1 h
    have hread := ih hbs (Nat.le_of_succ_le_succ hfuel) ht
    intro p
    rw [readStringBytes, List.cons_append, List.cons_append, Reader.take_bind_cons]
    simp only [if_neg hquote, if_neg hslash, if_neg hcontrol]
    rw [hread.bind_apply]
    rfl

theorem takes_escape {e bs : Bytes}
    (he : ∀ rest, (readEscape : Reader φ Bytes).Takes e rest bs) {fuel : Bytes}
    (hfuel : (0x5C :: e).length ≤ fuel.length) :
    ∃ fuel' : Bytes, fuel.length ≤ (0x5C :: e).length + fuel'.length ∧ ∀ {t rest x},
      Reader.Takes (readStringBytes fuel' : Reader φ Bytes) t rest x →
      Reader.Takes (readStringBytes fuel : Reader φ Bytes) (0x5C :: e ++ t) rest (bs ++ x) := by
  obtain ⟨y, fuel, rfl⟩ := List.exists_cons_of_length_pos (Nat.zero_lt_of_lt hfuel)
  refine ⟨fuel, by simp only [List.length_cons]; omega, fun {t rest x} ht p => ?_⟩
  rw [List.append_assoc, readStringBytes_backslash (he (t ++ rest)), ht.bind_apply,
    ← Position.past_append]
  rfl

/-- **A character is read from each of its spellings**, in as many steps as the spelling has
bytes, or in fewer. -/
theorem takes_spelledChar {s : Bytes} {c : Char} (h : SpellsChar s c) {fuel : Bytes}
    (hfuel : s.length ≤ fuel.length) :
    ∃ fuel' : Bytes, fuel.length ≤ s.length + fuel'.length ∧ ∀ {t rest x},
      Reader.Takes (readStringBytes fuel' : Reader φ Bytes) t rest x →
      Reader.Takes (readStringBytes fuel : Reader φ Bytes) (s ++ t) rest
        (Text.encodeChar c ++ x) := by
  cases h with
  | plain hcontrol hquote hslash =>
    refine ⟨_, ?_, takes_plain (plain_of_mem_encodeChar hcontrol hquote hslash) hfuel⟩
    rw [List.length_drop]
    omega
  | @letter c l b hl hc =>
    rw [encodeChar_eq_singleton (escapeLetter?_lt hl) hc]
    exact takes_escape (takes_readEscape_letter hl) hfuel
  | number hc => exact takes_escape (takes_readEscape_number hc) hfuel
  | @pair c _ _ _ _ _ _ _ _ lead trail hl ht hlead htrail hc =>
    rw [← Char.ofNat_toNat c, hc]
    exact takes_escape (takes_readEscape_pair hl ht hlead htrail) hfuel

/-! ### Strings -/

theorem takes_spelledChars {ts : List Bytes} {cs : List Char}
    (h : List.Forall₂ SpellsChar ts cs) {fuel : Bytes} (hfuel : ts.flatten.length < fuel.length)
    (rest : Bytes) :
    Reader.Takes (readStringBytes fuel : Reader φ Bytes) (ts.flatten ++ [0x22]) rest
      (cs.flatMap Text.encodeChar) := by
  induction h generalizing fuel with
  | nil =>
    obtain ⟨y, fuel, rfl⟩ := List.exists_cons_of_length_pos (Nat.zero_lt_of_lt hfuel)
    exact fun _ => rfl
  | @cons t c ts cs ht hts ih =>
    rw [List.flatten_cons, List.length_append] at hfuel
    have hlong : t.length ≤ fuel.length := by omega
    obtain ⟨fuel', hfuel', htake⟩ := takes_spelledChar (φ := φ) ht hlong
    rw [List.flatten_cons, List.append_assoc, List.flatMap_cons]
    exact htake (ih (by omega))

/-- **A string is read from each of its spellings.** -/
theorem takes_spelledName {t : Bytes} {s : String} (h : SpellsText t s) (rest : Bytes) :
    Reader.Takes (readName : Reader φ String) t rest s := by
  cases h with
  | @mk ts s h =>
    intro p
    have hfuel : ts.flatten.length < (0 :: (ts.flatten ++ [0x22] ++ rest)).length := by
      simp only [List.length_cons, List.length_append]
      omega
    have hopen : (readName : Reader φ String) ⟨p, 0x22 :: (ts.flatten ++ [0x22]) ++ rest⟩ =
        (readString : Reader φ String) ⟨p.after 0x22, ts.flatten ++ [0x22] ++ rest⟩ := rfl
    rw [hopen, readString, Reader.fuel_bind, (takes_spelledChars h hfuel rest).bind_apply,
      ← Text.encode, Text.decode?_encode]
    rfl

theorem takes_spelledText {brackets : Bool → Reader φ Value} {t : Bytes} {s : String}
    (h : SpellsText t s) (rest : Bytes) :
    Reader.Takes (readScalarOr brackets) t rest (.text s) := by
  have hname := takes_spelledName (φ := φ) h rest
  cases h with
  | @mk ts s h =>
    intro p
    have hopen : readScalarOr brackets ⟨p, 0x22 :: (ts.flatten ++ [0x22]) ++ rest⟩ =
        (do return Value.text (← readName)) ⟨p, 0x22 :: (ts.flatten ++ [0x22]) ++ rest⟩ := rfl
    rw [hopen, hname.bind_apply]
    rfl

end IndexFeed.Json
