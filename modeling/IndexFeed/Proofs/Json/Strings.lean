import IndexFeed.Json.Printer
import IndexFeed.Proofs.Json.Reading
import IndexFeed.Proofs.Text.Utf8

/-!
# Printed strings

A string is printed byte by byte, and each byte, escaped or not, is read back as that byte
(`readStringBytes_escapeByte`). The bytes that are read are those of the text, so that the text
itself is read back (`takes_readString`).
-/

namespace IndexFeed.Json

open Text (Bytes)

variable {φ : Type}

theorem hexFour?_control :
    ∀ n < 0x20, hexFour? 0x30 0x30 (hexDigit (n / 16)) (hexDigit (n % 16)) = some n := by
  decide

theorem takes_readHex {x y z u : UInt8} {n : Nat} (h : hexFour? x y z u = some n) (rest : Bytes) :
    Reader.Takes (readHex : Reader φ Nat) [x, y, z, u] rest n := by
  intro p
  simp only [readHex, List.cons_append, h]
  rfl

/-- A character is read from an escape with its number, since no character is a surrogate. -/
theorem takes_readEscape_number {x y z u : UInt8} {c : Char}
    (h : hexFour? x y z u = some c.toNat) (rest : Bytes) :
    Reader.Takes (readEscape : Reader φ Bytes) [0x75, x, y, z, u] rest (Text.encodeChar c) := by
  have hvalid : c.toNat < 0xD800 ∨ 0xDFFF < c.toNat ∧ c.toNat < 0x110000 := c.valid
  have hpoint : Reader.Takes (readCodePoint : Reader φ Char) [x, y, z, u] rest c := by
    intro p
    rw [readCodePoint, (takes_readHex h rest).bind_apply]
    have htrail : ¬ (0xDC00 ≤ c.toNat ∧ c.toNat ≤ 0xDFFF) := by omega
    have hlead : c.toNat < 0xD800 ∨ 0xDBFF < c.toNat := by omega
    simp [htrail, hlead]
  intro p
  rw [readEscape, List.cons_append, Reader.take_bind_cons]
  simp only [if_true]
  rw [hpoint.bind_apply]
  rfl

theorem takes_readEscape_control {b : UInt8} (h : b < 0x20) (rest : Bytes) :
    Reader.Takes (readEscape : Reader φ Bytes)
      [0x75, 0x30, 0x30, hexDigit (b.toNat / 16), hexDigit (b.toNat % 16)] rest [b] := by
  have hlt : b.toNat < 0x20 := UInt8.lt_iff_toNat_lt.1 h
  have hnumber : ∀ n < 0x20, (Char.ofNat n).toNat = n := by decide
  have hchar : Text.encodeChar (Char.ofNat b.toNat) = [b] := by
    rw [Text.encodeChar_ascii _ (by omega), UInt8.ofNat_toNat]
  rw [← hchar]
  exact takes_readEscape_number (by rw [hexFour?_control _ hlt, hnumber _ hlt]) rest

theorem takes_readEscape_letter {b l : UInt8} (hl : escapeLetter? l = some b) (rest : Bytes) :
    Reader.Takes (readEscape : Reader φ Bytes) [l] rest [b] := by
  have hne : l ≠ 0x75 := by
    rintro rfl
    cases hl
  intro p
  rw [readEscape, List.singleton_append, Reader.take_bind_cons]
  simp only [if_neg hne, hl]
  rfl

theorem readStringBytes_backslash {bs t rest : Bytes}
    (h : (readEscape : Reader φ Bytes).Takes t rest bs) (x : UInt8) (fuel : Bytes)
    (p : Position) :
    (readStringBytes (x :: fuel) : Reader φ Bytes) ⟨p, 0x5C :: t ++ rest⟩ =
      (do return bs ++ (← readStringBytes fuel)) ⟨p.past (0x5C :: t), rest⟩ := by
  have hquote : (0x5C : UInt8) ≠ 0x22 := by decide
  rw [readStringBytes, List.cons_append, Reader.take_bind_cons]
  simp only [if_neg hquote, if_true]
  rw [h.bind_apply]
  rfl

theorem readStringBytes_escapeByte (b x : UInt8) (fuel : Bytes) (p : Position) (rest : Bytes) :
    (readStringBytes (x :: fuel) : Reader φ Bytes) ⟨p, escapeByte b ++ rest⟩ =
      (do return b :: (← readStringBytes fuel)) ⟨p.past (escapeByte b), rest⟩ := by
  have hletter : ∀ {l}, escapeLetter? l = some b →
      (readStringBytes (x :: fuel) : Reader φ Bytes) ⟨p, [0x5C, l] ++ rest⟩ =
        (do return b :: (← readStringBytes fuel)) ⟨p.past [0x5C, l], rest⟩ := fun hl =>
    readStringBytes_backslash (takes_readEscape_letter hl rest) x fuel p
  unfold escapeByte
  split
  · next h => exact hletter (by rw [h]; rfl)
  split
  · next h => exact hletter (by rw [h]; rfl)
  split
  · next h => exact hletter (by rw [h]; rfl)
  split
  · next h => exact hletter (by rw [h]; rfl)
  split
  · next h => exact hletter (by rw [h]; rfl)
  split
  · next h => exact hletter (by rw [h]; rfl)
  split
  · next h => exact hletter (by rw [h]; rfl)
  split
  · next h => exact readStringBytes_backslash (takes_readEscape_control h rest) x fuel p
  · next hquote hslash _ _ _ _ _ hcontrol =>
    rw [readStringBytes, List.singleton_append, Reader.take_bind_cons]
    simp only [if_neg hquote, if_neg hslash, if_neg hcontrol]
    rfl

theorem takes_readStringBytes {bytes fuel : Bytes} (h : bytes.length < fuel.length) (rest : Bytes) :
    Reader.Takes (readStringBytes fuel : Reader φ Bytes) (bytes.flatMap escapeByte ++ [0x22]) rest
      bytes := by
  induction bytes generalizing fuel with
  | nil => cases fuel with
    | nil => cases h
    | cons x fuel =>
      intro p
      rw [readStringBytes, List.flatMap_nil, List.nil_append, List.singleton_append,
        Reader.take_bind_cons]
      rfl
  | cons b bytes ih => cases fuel with
    | nil => cases h
    | cons x fuel =>
      intro p
      have hread := ih (Nat.lt_of_succ_lt_succ h)
      rw [List.flatMap_cons, List.append_assoc (escapeByte b), List.append_assoc (escapeByte b),
        readStringBytes_escapeByte, hread.bind_apply, ← Position.past_append]
      rfl

theorem escapeByte_ne_nil (b : UInt8) : escapeByte b ≠ [] := by
  unfold escapeByte
  repeat' split
  all_goals exact List.cons_ne_nil _ _

theorem length_le_flatMap_escapeByte (bytes : Bytes) :
    bytes.length ≤ (bytes.flatMap escapeByte).length := by
  induction bytes with
  | nil => exact Nat.le_refl _
  | cons b bytes ih =>
    have hb : 0 < (escapeByte b).length := List.length_pos_iff.2 (escapeByte_ne_nil b)
    rw [List.flatMap_cons, List.length_append, List.length_cons]
    omega

/-- **A string is read back**, once its opening quote has been passed. -/
theorem takes_readString (s : String) (rest : Bytes) :
    Reader.Takes (readString : Reader φ String) ((Text.encode s).flatMap escapeByte ++ [0x22]) rest
      s := by
  intro p
  have hfuel : (Text.encode s).length <
      (0 :: ((Text.encode s).flatMap escapeByte ++ [0x22] ++ rest)).length := by
    have hlength := length_le_flatMap_escapeByte (Text.encode s)
    simp only [List.length_cons, List.length_append]
    omega
  rw [readString, Reader.fuel_bind, (takes_readStringBytes hfuel rest).bind_apply,
    Text.decode?_encode]
  rfl

end IndexFeed.Json
