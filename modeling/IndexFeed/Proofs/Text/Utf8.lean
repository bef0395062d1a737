import IndexFeed.Text.Utf8

/-!
# Encoded text is well formed

The bytes of a character are read as one piece, whatever follows them (`pieces_encodeChar`). So
encoded text is decoded to what it was (`decode?_encode`, `decodeLossy_encode`) and has no flaw
(`firstFlaw_encodeChars`). A byte of the ASCII range stands for itself and is part of no other
character (`eq_of_mem_encodeChar`), so that text may be cut at such bytes.
-/

namespace IndexFeed.Text

def encodeChars (cs : List Char) : Bytes := cs.flatMap encodeChar

/-! ### Bytes as numbers -/

theorem isTail_iff {b : UInt8} : isTail b = true ↔ 0x80 ≤ b.toNat ∧ b.toNat ≤ 0xBF := by
  simp [isTail, UInt8.le_iff_toNat_le]

/-- A continuation byte may come second unless one of the four narrow leads rules it out. -/
theorem isSecond_of_range {a b : UInt8} (hb : 0x80 ≤ b.toNat ∧ b.toNat ≤ 0xBF)
    (h0 : a.toNat = 0xE0 → 0xA0 ≤ b.toNat) (hd : a.toNat = 0xED → b.toNat ≤ 0x9F)
    (hf : a.toNat = 0xF0 → 0x90 ≤ b.toNat) (h4 : a.toNat = 0xF4 → b.toNat ≤ 0x8F) :
    isSecond a b = true := by
  have hnarrow : ∀ {lead : UInt8} {p : Prop}, a = lead → (a.toNat = lead.toNat → p) → p :=
    fun h hp => hp (congrArg UInt8.toNat h)
  unfold isSecond
  split
  · next h => simpa [UInt8.le_iff_toNat_le] using ⟨hnarrow h h0, hb.2⟩
  split
  · next h => simpa [UInt8.le_iff_toNat_le] using ⟨hb.1, hnarrow h hd⟩
  split
  · next h => simpa [UInt8.le_iff_toNat_le] using ⟨hnarrow h hf, hb.2⟩
  split
  · next h => simpa [UInt8.le_iff_toNat_le] using ⟨hb.1, hnarrow h h4⟩
  · exact isTail_iff.2 hb

/-! ### The piece of a character -/

section Piece

variable {n : Nat} (rest : Bytes)

theorem pieceAt_one (h : n ≤ 0x7F) : pieceAt (UInt8.ofNat n) rest = .char (Char.ofNat n) := by
  have ha : (UInt8.ofNat n).toNat = n := UInt8.toNat_ofNat_of_lt' (show _ < 256 by omega)
  have hlt : UInt8.ofNat n < 0x80 := by
    rw [UInt8.lt_iff_toNat_lt, ha]
    exact Nat.lt_succ_of_le h
  rw [pieceAt, if_pos hlt, ha]

theorem pieceAt_two (h : 0x7F < n) (h' : n ≤ 0x7FF) :
    pieceAt (UInt8.ofNat (n / 64 % 32 + 192)) (UInt8.ofNat (n % 64 + 128) :: rest) =
      .char (Char.ofNat n) := by
  have ha : (UInt8.ofNat (n / 64 % 32 + 192)).toNat = n / 64 % 32 + 192 :=
    UInt8.toNat_ofNat_of_lt' (show _ < 256 by omega)
  have hb : (UInt8.ofNat (n % 64 + 128)).toNat = n % 64 + 128 :=
    UInt8.toNat_ofNat_of_lt' (show _ < 256 by omega)
  generalize UInt8.ofNat (n / 64 % 32 + 192) = a at ha ⊢
  generalize UInt8.ofNat (n % 64 + 128) = b at hb ⊢
  have hlead : pieceAt a (b :: rest) = pieceOfTwo a (b :: rest) := by
    unfold pieceAt
    rw [if_neg (by simp [UInt8.lt_iff_toNat_lt]; omega),
      if_pos (by simp [UInt8.le_iff_toNat_le]; omega)]
  have hcode : a.toNat % 32 * 64 + tailBits b = n := by
    unfold tailBits
    omega
  rw [hlead, pieceOfTwo, if_pos (isTail_iff.2 (by omega)), hcode]

theorem pieceAt_three (h : 0x7FF < n) (h' : n ≤ 0xFFFF) (hchar : n < 0xD800 ∨ 0xDFFF < n) :
    pieceAt (UInt8.ofNat (n / 4096 % 16 + 224))
      (UInt8.ofNat (n / 64 % 64 + 128) :: UInt8.ofNat (n % 64 + 128) :: rest) =
      .char (Char.ofNat n) := by
  have ha : (UInt8.ofNat (n / 4096 % 16 + 224)).toNat = n / 4096 % 16 + 224 :=
    UInt8.toNat_ofNat_of_lt' (show _ < 256 by omega)
  have hb : (UInt8.ofNat (n / 64 % 64 + 128)).toNat = n / 64 % 64 + 128 :=
    UInt8.toNat_ofNat_of_lt' (show _ < 256 by omega)
  have hc : (UInt8.ofNat (n % 64 + 128)).toNat = n % 64 + 128 :=
    UInt8.toNat_ofNat_of_lt' (show _ < 256 by omega)
  generalize UInt8.ofNat (n / 4096 % 16 + 224) = a at ha ⊢
  generalize UInt8.ofNat (n / 64 % 64 + 128) = b at hb ⊢
  generalize UInt8.ofNat (n % 64 + 128) = c at hc ⊢
  have hlead : pieceAt a (b :: c :: rest) = pieceOfThree a (b :: c :: rest) := by
    unfold pieceAt
    rw [if_neg (by simp [UInt8.lt_iff_toNat_lt]; omega),
      if_neg (by simp [UInt8.le_iff_toNat_le]; omega),
      if_pos (by simp [UInt8.le_iff_toNat_le]; omega)]
  have hsecond : isSecond a b = true :=
    isSecond_of_range (by omega) (by omega) (by omega) (by omega) (by omega)
  have hthird : isTail c = true := isTail_iff.2 (by omega)
  have hcode : (a.toNat % 16 * 64 + tailBits b) * 64 + tailBits c = n := by
    unfold tailBits
    omega
  simp only [hlead, pieceOfThree, hsecond, hthird, hcode, if_true]

theorem pieceAt_four (h : 0xFFFF < n) (h' : n < 0x110000) :
    pieceAt (UInt8.ofNat (n / 262144 % 8 + 240))
      (UInt8.ofNat (n / 4096 % 64 + 128) :: UInt8.ofNat (n / 64 % 64 + 128) ::
        UInt8.ofNat (n % 64 + 128) :: rest) =
      .char (Char.ofNat n) := by
  have ha : (UInt8.ofNat (n / 262144 % 8 + 240)).toNat = n / 262144 % 8 + 240 :=
    UInt8.toNat_ofNat_of_lt' (show _ < 256 by omega)
  have hb : (UInt8.ofNat (n / 4096 % 64 + 128)).toNat = n / 4096 % 64 + 128 :=
    UInt8.toNat_ofNat_of_lt' (show _ < 256 by omega)
  have hc : (UInt8.ofNat (n / 64 % 64 + 128)).toNat = n / 64 % 64 + 128 :=
    UInt8.toNat_ofNat_of_lt' (show _ < 256 by omega)
  have hd : (UInt8.ofNat (n % 64 + 128)).toNat = n % 64 + 128 :=
    UInt8.toNat_ofNat_of_lt' (show _ < 256 by omega)
  generalize UInt8.ofNat (n / 262144 % 8 + 240) = a at ha ⊢
  generalize UInt8.ofNat (n / 4096 % 64 + 128) = b at hb ⊢
  generalize UInt8.ofNat (n / 64 % 64 + 128) = c at hc ⊢
  generalize UInt8.ofNat (n % 64 + 128) = d at hd ⊢
  have hlead : pieceAt a (b :: c :: d :: rest) = pieceOfFour a (b :: c :: d :: rest) := by
    unfold pieceAt
    rw [if_neg (by simp [UInt8.lt_iff_toNat_lt]; omega),
      if_neg (by simp [UInt8.le_iff_toNat_le]; omega),
      if_neg (by simp [UInt8.le_iff_toNat_le]; omega),
      if_pos (by simp [UInt8.le_iff_toNat_le]; omega)]
  have hsecond : isSecond a b = true :=
    isSecond_of_range (by omega) (by omega) (by omega) (by omega) (by omega)
  have hthird : isTail c = true := isTail_iff.2 (by omega)
  have hfourth : isTail d = true := isTail_iff.2 (by omega)
  have hcode : ((a.toNat % 8 * 64 + tailBits b) * 64 + tailBits c) * 64 + tailBits d = n := by
    unfold tailBits
    omega
  simp only [hlead, pieceOfFour, hsecond, hthird, hfourth, hcode, if_true]

/-- **A character is the piece that its bytes begin.** -/
theorem pieceAt_encodeChar (c : Char) :
    ∃ a tail, encodeChar c = a :: tail ∧ tail.length + 1 = c.utf8Size ∧
      pieceAt a (tail ++ rest) = .char c := by
  have hsize : (encodeChar c).length = c.utf8Size := String.length_utf8EncodeChar c
  have hvalid : c.toNat < 0xD800 ∨ 0xDFFF < c.toNat ∧ c.toNat < 0x110000 := c.valid
  have hchar : Piece.char c = .char (Char.ofNat c.toNat) := by rw [Char.ofNat_toNat]
  rw [← hsize, hchar]
  unfold encodeChar String.utf8EncodeChar
  change c.toNat < _ ∨ _ at hvalid
  rw [show c.val.toNat = c.toNat from rfl]
  simp only
  split
  · next h => exact ⟨_, _, rfl, rfl, pieceAt_one rest h⟩
  split
  · next h h' => exact ⟨_, _, rfl, rfl, pieceAt_two rest (Nat.lt_of_not_le h) h'⟩
  split
  · next h h' =>
    exact ⟨_, _, rfl, rfl, pieceAt_three rest (Nat.lt_of_not_le h) h' (by omega)⟩
  · next h => exact ⟨_, _, rfl, rfl, pieceAt_four rest (Nat.lt_of_not_le h) (by omega)⟩

end Piece

/-! ### The pieces of encoded text -/

theorem pieces_encodeChar (c : Char) (rest : Bytes) :
    pieces (encodeChar c ++ rest) = .char c :: pieces rest := by
  obtain ⟨a, tail, hbytes, hsize, hpiece⟩ := pieceAt_encodeChar rest c
  have hdrop : (tail ++ rest).drop (c.utf8Size - 1) = rest := by
    rw [← hsize, Nat.add_sub_cancel, List.drop_left]
  rw [hbytes, List.cons_append, pieces, hpiece, Piece.size, hdrop]

theorem encodeChar_injective : Function.Injective encodeChar := by
  intro c c' h
  have hpieces := (pieces_encodeChar c []).symm.trans (h ▸ pieces_encodeChar c' [])
  exact Piece.char.inj (List.cons.inj hpieces).1

theorem encodeChar_ne_nil (c : Char) : encodeChar c ≠ [] := String.utf8EncodeChar_ne_nil

theorem encodeChars_cons (c : Char) (cs : List Char) :
    encodeChars (c :: cs) = encodeChar c ++ encodeChars cs :=
  List.flatMap_cons

theorem pieces_encodeChars (cs : List Char) : pieces (encodeChars cs) = cs.map .char := by
  induction cs with
  | nil => simp [encodeChars, pieces]
  | cons c cs ih =>
    rw [encodeChars_cons, pieces_encodeChar, ih, List.map_cons]

/-- **Encoded text is decoded to what it was.** -/
theorem decode?_encode (s : String) : decode? (encode s) = some s := by
  have hchars : ∀ cs : List Char, (cs.map Piece.char).mapM Piece.char? = some cs := by
    intro cs
    induction cs with
    | nil => rfl
    | cons c cs ih => simp [List.mapM_cons, Piece.char?, ih]
  rw [decode?, encode, ← encodeChars, pieces_encodeChars, hchars, Option.map_some,
    String.ofList_toList]

theorem decodeLossy_encode (s : String) : decodeLossy (encode s) = s := by
  rw [decodeLossy, encode, ← encodeChars, pieces_encodeChars, List.map_map]
  exact (congrArg String.ofList (List.map_id _)).trans (String.ofList_toList)

theorem firstFlaw_encodeChars (cs : List Char) : firstFlaw (encodeChars cs) = none := by
  rw [firstFlaw, pieces_encodeChars]
  generalize 0 = offset
  induction cs generalizing offset with
  | nil => rfl
  | cons c cs ih => exact ih _

/-! ### Bytes of the ASCII range -/

theorem encodeChar_ascii : ∀ n < 0x80, encodeChar (Char.ofNat n) = [UInt8.ofNat n] := by
  decide +kernel

/-- **A byte of the ASCII range is part of no other character** than the one it stands for. -/
theorem eq_of_mem_encodeChar {b : UInt8} {c : Char} (hb : b < 0x80) (h : b ∈ encodeChar c) :
    encodeChar c = [b] := by
  have hb : b.toNat < 128 := UInt8.lt_iff_toNat_lt.1 hb
  unfold encodeChar String.utf8EncodeChar at h ⊢
  generalize c.val.toNat = n at h ⊢
  have hbig : ∀ m : Nat, 128 ≤ m → m < 256 → b ≠ UInt8.ofNat m := by
    rintro m hm hm' rfl
    rw [UInt8.toNat_ofNat_of_lt' hm'] at hb
    omega
  simp only at h ⊢
  split
  · next hn =>
    rw [if_pos hn, List.mem_singleton] at h
    rw [h]
  · next hn =>
    rw [if_neg hn] at h
    exfalso
    split at h
    · simp only [List.mem_cons, List.not_mem_nil, or_false] at h
      rcases h with h | h <;> exact hbig _ (by omega) (by omega) h
    split at h <;> simp only [List.mem_cons, List.not_mem_nil, or_false] at h
    · rcases h with h | h | h <;> exact hbig _ (by omega) (by omega) h
    · rcases h with h | h | h | h <;> exact hbig _ (by omega) (by omega) h

end IndexFeed.Text
