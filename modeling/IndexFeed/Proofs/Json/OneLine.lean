import IndexFeed.Proofs.Json.RoundTrip

/-!
# Printed values on one line

The text of a value is UTF-8 without a control character (`oneLine_print`), whatever its strings
are: a control of a string is escaped, and the bytes of any other character are printed as they
are. So the text stands on one line (`OneLine.lineFeed_not_mem`) and decodes without a flaw.
-/

namespace IndexFeed.Json

open Text (Bytes)

/-- UTF-8 text in which no byte is a control below the space. -/
structure OneLine (bytes : Bytes) : Prop where
  text : ∃ cs, bytes = Text.encodeChars cs
  shown : ∀ b ∈ bytes, 0x20 ≤ b

namespace OneLine

variable {bytes bytes' : Bytes}

theorem nil : OneLine [] := ⟨⟨[], rfl⟩, nofun⟩

theorem append (h : OneLine bytes) (h' : OneLine bytes') : OneLine (bytes ++ bytes') := by
  obtain ⟨cs, rfl⟩ := h.text
  obtain ⟨cs', rfl⟩ := h'.text
  exact ⟨⟨cs ++ cs', List.flatMap_append.symm⟩,
    fun b hb => (List.mem_append.1 hb).elim (h.shown b) (h'.shown b)⟩

theorem exists_encode (h : OneLine bytes) : ∃ s, bytes = Text.encode s := by
  obtain ⟨cs, rfl⟩ := h.text
  exact ⟨String.ofList cs, by rw [Text.encode, String.toList_ofList, Text.encodeChars]⟩

theorem not_mem_of_lt (h : OneLine bytes) {b : UInt8} (hb : b < 0x20) : b ∉ bytes :=
  fun hmem => absurd hb (UInt8.not_lt.2 (h.shown b hmem))

end OneLine

/-! ### Characters -/

theorem oneLine_of_ascii {bytes : Bytes} (h : ∀ b ∈ bytes, 0x20 ≤ b ∧ b < 0x80) :
    OneLine bytes := by
  induction bytes with
  | nil => exact .nil
  | cons b bytes ih =>
    obtain ⟨⟨hlow, hhigh⟩, hrest⟩ := List.forall_mem_cons.1 h
    have hchar := Text.encodeChar_ascii b.toNat (UInt8.lt_iff_toNat_lt.1 hhigh)
    rw [UInt8.ofNat_toNat] at hchar
    have hfirst : OneLine [b] :=
      ⟨⟨[Char.ofNat b.toNat], by rw [Text.encodeChars_cons, hchar]; rfl⟩, by simpa using hlow⟩
    exact hfirst.append (ih hrest)

theorem oneLine_singleton {b : UInt8} (h : 0x20 ≤ b ∧ b < 0x80) : OneLine [b] :=
  oneLine_of_ascii (by simpa using h)

theorem oneLine_ascii {cs : List Char} (h : ∀ c ∈ cs, 0x20 ≤ c.toNat ∧ c.toNat < 0x80) :
    OneLine (ascii cs) := by
  refine oneLine_of_ascii fun b hb => ?_
  obtain ⟨c, hc, rfl⟩ := List.mem_map.1 hb
  obtain ⟨hlow, hhigh⟩ := h c hc
  have hval : (UInt8.ofNat c.toNat).toNat = c.toNat :=
    UInt8.toNat_ofNat_of_lt' (show _ < 256 by omega)
  rw [UInt8.le_iff_toNat_le, UInt8.lt_iff_toNat_lt, hval]
  exact ⟨hlow, hhigh⟩

theorem oneLine_word {s : String}
    (h : (s.toList.all fun c => 0x20 ≤ c.toNat && c.toNat < 0x80) = true) :
    OneLine (ascii s.toList) :=
  oneLine_ascii (by simpa using h)

/-! ### Strings -/

theorem escapeByte_ascii :
    ∀ n < 0x80, (escapeByte (UInt8.ofNat n)).all (fun b => 0x20 ≤ b && b < 0x80) = true := by
  decide +kernel

theorem escapeByte_of_le {b : UInt8} (h : 0x80 ≤ b) : escapeByte b = [b] := by
  have hne : ∀ c < 0x80, b ≠ c := fun c hc hb => absurd (hb ▸ h) (UInt8.not_le.2 hc)
  have hshown : ¬ b < 0x20 := UInt8.not_lt.2 (UInt8.le_trans (by decide) h)
  unfold escapeByte
  rw [if_neg (hne _ (by decide)), if_neg (hne _ (by decide)), if_neg (hne _ (by decide)),
    if_neg (hne _ (by decide)), if_neg (hne _ (by decide)), if_neg (hne _ (by decide)),
    if_neg (hne _ (by decide)), if_neg hshown]

theorem oneLine_escapeChar (c : Char) : OneLine ((Text.encodeChar c).flatMap escapeByte) := by
  by_cases hascii : ∃ b ∈ Text.encodeChar c, b < 0x80
  · obtain ⟨b, hb, hlt⟩ := hascii
    have hescaped := escapeByte_ascii b.toNat (UInt8.lt_iff_toNat_lt.1 hlt)
    rw [UInt8.ofNat_toNat, List.all_eq_true] at hescaped
    rw [Text.eq_of_mem_encodeChar hlt hb, List.flatMap_singleton]
    exact oneLine_of_ascii (by simpa using hescaped)
  · have hhigh : ∀ b ∈ Text.encodeChar c, 0x80 ≤ b :=
      fun b hb => UInt8.not_lt.1 fun hlt => hascii ⟨b, hb, hlt⟩
    have hsame : (Text.encodeChar c).flatMap escapeByte = Text.encodeChar c := by
      rw [List.flatMap_congr fun b hb => escapeByte_of_le (hhigh b hb), List.flatMap_singleton']
    rw [hsame]
    exact ⟨⟨[c], (List.flatMap_singleton _ _).symm⟩,
      fun b hb => UInt8.le_trans (by decide) (hhigh b hb)⟩

theorem oneLine_escaped (cs : List Char) :
    OneLine ((Text.encodeChars cs).flatMap escapeByte) := by
  induction cs with
  | nil => exact .nil
  | cons c cs ih =>
    rw [Text.encodeChars_cons, List.flatMap_append]
    exact (oneLine_escapeChar c).append ih

theorem oneLine_printText (s : String) : OneLine (printText s) := by
  have hquote : OneLine [0x22] := oneLine_singleton (by decide)
  exact (hquote.append (oneLine_escaped s.toList)).append hquote

/-! ### Numbers -/

theorem oneLine_digits (n : Nat) : OneLine (printNat n) := by
  refine oneLine_ascii fun c hc => ?_
  have hdigit : c.isDigit = true := Nat.isDigit_of_mem_toDigits (by decide) (by decide) hc
  obtain ⟨hlow, hhigh⟩ := Char.isDigit_iff_toNat.1 hdigit
  have hzero : '0'.toNat = 48 := rfl
  have hnine : '9'.toNat = 57 := rfl
  omega

theorem oneLine_printInt (n : Int) : OneLine (printInt n) := by
  unfold printInt
  split
  · exact (oneLine_singleton (b := 0x2D) (by decide)).append (oneLine_digits _)
  · exact oneLine_digits _

theorem oneLine_printFloat (x : Float) : OneLine (printFloat x) := by
  unfold printFloat
  split
  · refine oneLine_ascii fun c hc => ?_
    have hwritten := Decimal.isWritten_of_mem_writeFloat floatStyle hc
    simp only [Decimal.isWritten, Bool.or_eq_true, beq_iff_eq] at hwritten
    rcases hwritten with (((hdigit | rfl) | rfl) | rfl) | rfl
    · obtain ⟨hlow, hhigh⟩ := Char.isDigit_iff_toNat.1 hdigit
      have hzero : '0'.toNat = 48 := rfl
      have hnine : '9'.toNat = 57 := rfl
      omega
    all_goals decide
  · exact oneLine_word rfl

/-! ### Values -/

theorem oneLine_commas {ts : List Bytes} (h : ∀ t ∈ ts, OneLine t) : OneLine (commas ts) := by
  have hcomma : OneLine [0x2C] := oneLine_singleton (by decide)
  have hmore : ∀ ts : List Bytes, (∀ t ∈ ts, OneLine t) → OneLine (ts.flatMap (0x2C :: ·)) := by
    intro ts h
    induction ts with
    | nil => exact .nil
    | cons t ts ih =>
      obtain ⟨ht, hts⟩ := List.forall_mem_cons.1 h
      exact (hcomma.append ht).append (ih hts)
  cases ts with
  | nil => exact .nil
  | cons t ts =>
    obtain ⟨ht, hts⟩ := List.forall_mem_cons.1 h
    rw [commas_cons]
    exact ht.append (hmore ts hts)

theorem OneLine.enclosed {bytes : Bytes} (h : OneLine bytes) {first last : UInt8}
    (hfirst : 0x20 ≤ first ∧ first < 0x80) (hlast : 0x20 ≤ last ∧ last < 0x80) :
    OneLine (first :: bytes ++ [last]) :=
  ((oneLine_singleton hfirst).append h).append (oneLine_singleton hlast)

/-- **The text of a value stands on one line.** -/
theorem oneLine_print (v : Value) : OneLine v.print := by
  induction v using Value.induction_on with
  | scalar v hv => cases v with
    | null => exact oneLine_word rfl
    | bool b => cases b <;> exact oneLine_word rfl
    | int n => exact oneLine_printInt n.val
    | float x => exact oneLine_printFloat x
    | text s => exact oneLine_printText s
    | array items => cases hv
    | object ms => cases hv
  | array items ih =>
    rw [Value.print, Value.printItems_eq]
    refine OneLine.enclosed (oneLine_commas fun t ht => ?_) (by decide) (by decide)
    obtain ⟨v, hv, rfl⟩ := List.mem_map.1 ht
    exact ih v hv
  | object ms ih =>
    rw [Value.print, Value.printMembers_eq]
    refine OneLine.enclosed (oneLine_commas fun t ht => ?_) (by decide) (by decide)
    obtain ⟨m, hm, rfl⟩ := List.mem_map.1 ht
    have hcolon : OneLine [0x3A] := oneLine_singleton (by decide)
    exact (oneLine_printText m.1).append (hcolon.append (ih m hm))

end IndexFeed.Json
