import IndexFeed.Proofs.Decimal.Style
import IndexFeed.Proofs.Json.Numbers
import IndexFeed.Proofs.Json.Strings
import Mathlib.Data.List.TakeWhile

/-!
# Printed scalars

A scalar is read back from its text: null, a truth value, a string and an integer of the wire as
they are (`takes_int`), and a float as what its text is read as alone (`takes_float`). No text of a
value is empty or begins with white space (`opens_print`).
-/

namespace IndexFeed.Json

open Text (Bytes)

/-- Whether the text of a float, if it is finite, is read as a float. -/
def ReadsBack (x : Float) : Prop :=
  x.isFinite = true → ∃ y, parse (printFloat x) = .ok (.float y)

/-- The value that the text of a float is read as. -/
def rereadFloat (x : Float) : Value :=
  match parse (printFloat x) with
  | .ok v => v
  | .error _ => .float x

/-- Whether a float was read. -/
def holdsFloat : Except (Failure Empty) Value → Bool
  | .ok (.float _) => true
  | _ => false

theorem holdsFloat_iff {out : Except (Failure Empty) Value} :
    holdsFloat out = true ↔ ∃ y, out = .ok (.float y) := by
  unfold holdsFloat
  split
  · next y => exact ⟨fun _ => ⟨y, rfl⟩, fun _ => rfl⟩
  · next hother =>
    constructor
    · intro h
      cases h
    · rintro ⟨y, rfl⟩
      exact absurd rfl (hother y)

instance (x : Float) : Decidable (ReadsBack x) :=
  decidable_of_iff (x.isFinite = true → holdsFloat (parse (printFloat x)) = true)
    (imp_congr_right fun _ => holdsFloat_iff)

variable {φ : Type}

/-! ### Whole texts -/

theorem atEnd_eq_ok {α : Type} {x : α} {q : Position} {t : Bytes} {out : α × Input} : (do
      if (← Reader.peekToken).isSome then .failPeek .trailingCharacters else return x :
      Reader φ α) ⟨q, t⟩ = .ok out ↔
    (∀ b ∈ t, Reader.isBlank b = true) ∧ out = (x, ⟨q.past (t.takeWhile Reader.isBlank), []⟩) := by
  have hpeek : (Reader.peekToken : Reader φ (Option UInt8)) ⟨q, t⟩ =
      .ok ((t.dropWhile Reader.isBlank).head?,
        ⟨q.past (t.takeWhile Reader.isBlank), t.dropWhile Reader.isBlank⟩) := by
    rw [Reader.peekToken, dropWhile_eq]
  rw [Reader.bind_of_ok _ hpeek, ← List.dropWhile_eq_nil_iff]
  cases t.dropWhile Reader.isBlank with
  | nil => simp [eq_comm]
  | cons b t' => simp [Reader.failPeek]

theorem readWhole_eq_ok {α : Type} {body : Reader φ α} {bytes : Bytes} {x : α} :
    readWhole body bytes = .ok x ↔
      ∃ q t, body ⟨.start, bytes⟩ = .ok (x, ⟨q, t⟩) ∧ ∀ b ∈ t, Reader.isBlank b = true := by
  have hrun : readWhole body bytes = Prod.fst <$> (do
      let x ← body
      if (← Reader.peekToken).isSome then .failPeek .trailingCharacters else return x :
      Reader φ α) ⟨.start, bytes⟩ := rfl
  have hfirst : ∀ out : Except (Failure φ) (α × Input),
      Prod.fst <$> out = .ok x ↔ ∃ j, out = .ok (x, j) := by
    rintro (e | ⟨y, j⟩)
    · exact iff_of_false nofun fun ⟨_, h⟩ => nomatch h
    · constructor
      · intro h
        cases h
        exact ⟨j, rfl⟩
      · rintro ⟨_, h⟩
        cases h
        rfl
  rw [hrun, hfirst]
  constructor
  · rintro ⟨j, hout⟩
    obtain ⟨y, ⟨q, t⟩, hbody, hend⟩ := Reader.bind_eq_ok.1 hout
    obtain ⟨hblank, hx⟩ := atEnd_eq_ok.1 hend
    cases hx
    exact ⟨q, t, hbody, hblank⟩
  · rintro ⟨q, t, hbody, hblank⟩
    exact ⟨_, Reader.bind_eq_ok.2 ⟨x, _, hbody, atEnd_eq_ok.2 ⟨hblank, rfl⟩⟩⟩

theorem readWhole_of_takes {depth : Nat} {text : Bytes} {v : Value}
    (h : Reader.Takes (readRaw depth : Reader φ Value) text [] v) :
    readWhole (readValue depth : Reader φ Value) text = .ok v.canonical := by
  refine readWhole_eq_ok.2 ⟨Position.start.past text, [], ?_, fun _ => nofun⟩
  have hread := h .start
  rw [List.append_nil] at hread
  rw [readValue, Reader.bind_of_ok _ hread]
  rfl

theorem parse_of_takes {text : Bytes} {v : Value}
    (h : Reader.Takes (readRaw levels : Reader Empty Value) text [] v) :
    parse text = .ok v.canonical :=
  readWhole_of_takes h

/-! ### First bytes -/

/-- The text begins with a byte that is not blank and closes no array. -/
def Opens (text : Bytes) : Prop :=
  ∃ b t, text = b :: t ∧ Reader.isBlank b = false ∧ b ≠ 0x5D

theorem ne_of_isDigit {b c : UInt8} (hb : isDigit b = true) (hc : isDigit c = false) : b ≠ c := by
  rintro rfl
  cases hb.symm.trans hc

theorem isBlank_of_isDigit {b : UInt8} (h : isDigit b = true) : Reader.isBlank b = false := by
  have hspace : b ≠ 32 := ne_of_isDigit h rfl
  have htab : b ≠ 9 := ne_of_isDigit h rfl
  have hfeed : b ≠ 10 := ne_of_isDigit h rfl
  have hreturn : b ≠ 13 := ne_of_isDigit h rfl
  simp [Reader.isBlank, hspace, htab, hfeed, hreturn]

theorem opens_of_isDigit {b : UInt8} (h : isDigit b = true) (t : Bytes) : Opens (b :: t) :=
  ⟨b, t, rfl, isBlank_of_isDigit h, ne_of_isDigit h rfl⟩

theorem printNat_eq (n : Nat) : ∃ b t, printNat n = b :: t ∧ isDigit b = true := by
  obtain ⟨c, cs, hcs, hdigits, -⟩ := exists_toDigits n
  refine ⟨digitByte c, ascii cs, ?_, isDigit_digitByte (hdigits c List.mem_cons_self)⟩
  rw [printNat, hcs]
  rfl

theorem opens_printInt (n : Int) : Opens (printInt n) := by
  obtain ⟨b, t, hnat, hb⟩ := printNat_eq n.natAbs
  unfold printInt
  rw [hnat]
  split
  · exact ⟨0x2D, _, rfl, rfl, by decide⟩
  · exact opens_of_isDigit hb t

theorem printFloat_eq {x : Float} (hx : x.isFinite = true) :
    (∃ b t, printFloat x = b :: t ∧ (b = 0x2D ∨ isDigit b = true)) ∧
      ∀ b ∈ printFloat x, Reader.isBlank b = false := by
  have htext : printFloat x = ascii (floatStyle.writeFloat x) := if_pos hx
  rw [htext]
  constructor
  · obtain ⟨c, cs, hcs, hc⟩ := Decimal.exists_writeFloat floatStyle x
    refine ⟨digitByte c, ascii cs, by rw [hcs]; rfl, ?_⟩
    rcases hc with rfl | hc
    · exact .inl rfl
    · exact .inr (isDigit_digitByte hc)
  · intro b hb
    obtain ⟨c, hc, rfl⟩ := List.mem_map.1 hb
    have hwritten := Decimal.isWritten_of_mem_writeFloat floatStyle hc
    simp only [Decimal.isWritten, Bool.or_eq_true, beq_iff_eq] at hwritten
    rcases hwritten with (((hc | rfl) | rfl) | rfl) | rfl
    · exact isBlank_of_isDigit (isDigit_digitByte hc)
    all_goals rfl

theorem opens_printFloat (x : Float) : Opens (printFloat x) := by
  cases hx : x.isFinite with
  | false =>
    have htext : printFloat x = ascii "null".toList := if_neg (Bool.eq_false_iff.1 hx)
    rw [htext]
    exact ⟨0x6E, _, rfl, rfl, by decide⟩
  | true =>
    obtain ⟨⟨b, t, htext, hb⟩, -⟩ := printFloat_eq hx
    rw [htext]
    rcases hb with rfl | hb
    · exact ⟨0x2D, t, rfl, rfl, by decide⟩
    · exact opens_of_isDigit hb t

theorem opens_print (v : Value) : Opens v.print := by
  cases v with
  | null => exact ⟨0x6E, _, rfl, rfl, by decide⟩
  | bool b => cases b with
    | true => exact ⟨0x74, _, rfl, rfl, by decide⟩
    | false => exact ⟨0x66, _, rfl, rfl, by decide⟩
  | int n => exact opens_printInt n.val
  | float x => exact opens_printFloat x
  | text s => exact ⟨0x22, _, rfl, rfl, by decide⟩
  | array items => exact ⟨0x5B, _, rfl, rfl, by decide⟩
  | object ms => exact ⟨0x7B, _, rfl, rfl, by decide⟩

/-! ### Scalars -/

section Scalars

variable {brackets : Bool → Reader φ Value} {rest : Bytes}

theorem readScalarOr_minus (p : Position) (s : Bytes) :
    readScalarOr brackets ⟨p, 0x2D :: s⟩ =
      (do return (← readNumeral true).value) ⟨p.after 0x2D, s⟩ := rfl

theorem readScalarOr_digit {b : UInt8} (h : isDigit b = true) (p : Position) (s : Bytes) :
    readScalarOr brackets ⟨p, b :: s⟩ = (do return (← readNumeral false).value) ⟨p, b :: s⟩ := by
  have hn : b ≠ 0x6E := ne_of_isDigit h rfl
  have ht : b ≠ 0x74 := ne_of_isDigit h rfl
  have hf : b ≠ 0x66 := ne_of_isDigit h rfl
  have hminus : b ≠ 0x2D := ne_of_isDigit h rfl
  rw [readScalarOr, Reader.peekToken_bind_cons p b s (isBlank_of_isDigit h)]
  simp only [if_neg hn, if_neg ht, if_neg hf, if_neg hminus, h, if_true]

theorem takes_null (rest : Bytes) :
    Reader.Takes (readScalarOr brackets) (ascii "null".toList) rest .null := fun _ => rfl

theorem takes_bool (b : Bool) (rest : Bytes) :
    Reader.Takes (readScalarOr brackets) (Value.bool b).print rest (.bool b) := by
  intro p
  cases b <;> rfl

theorem takes_text (s : String) (rest : Bytes) :
    Reader.Takes (readScalarOr brackets) (printText s) rest (.text s) := by
  intro p
  have hquote : readScalarOr brackets ⟨p, printText s ++ rest⟩ =
      (do return Value.text (← readString)) ⟨p.after 0x22,
        (Text.encode s).flatMap escapeByte ++ [0x22] ++ rest⟩ := rfl
  rw [hquote, (takes_readString s rest).bind_apply]
  rfl

theorem takes_int (hrest : Ended rest) (n : WireInt) :
    Reader.Takes (readScalarOr brackets) (printInt n.val) rest (.int n) := by
  intro p
  obtain ⟨n, lower, upper⟩ := n
  simp only [printInt]
  split
  · next hneg =>
    obtain ⟨m, rfl⟩ : ∃ m : Nat, n = -m := ⟨n.natAbs, by omega⟩
    have habs : (-(m : Int)).natAbs = m := by omega
    have hm : 0 < m ∧ m ≤ 0x8000000000000000 := by omega
    have hread := takes_readNumeral (φ := φ) hrest (n := m) (by omega) true
    rw [habs, List.cons_append, readScalarOr_minus, hread.bind_apply]
    simp only [Numeral.ofWhole, if_true, dif_pos hm]
    rfl
  · next hneg =>
    obtain ⟨m, rfl⟩ : ∃ m : Nat, n = m := ⟨n.toNat, by omega⟩
    have habs : (m : Int).natAbs = m := by omega
    have hm : m < 0x10000000000000000 := by omega
    have hread := takes_readNumeral (φ := φ) hrest hm false
    obtain ⟨b, t, htext, hb⟩ := printNat_eq m
    rw [habs, htext, List.cons_append, readScalarOr_digit hb, ← List.cons_append, ← htext,
      hread.bind_apply]
    simp only [Numeral.ofWhole, Bool.false_eq_true, if_false, dif_pos hm]
    rfl

/-- A number is read the same ahead of all that ends it, however many levels may be opened. -/
theorem steadyAt_readScalarOr {b : UInt8} (hb : b = 0x2D ∨ isDigit b = true) (t : Bytes) :
    Reader.SteadyAt (readScalarOr brackets) (b :: t) := by
  have hvalue : ∀ minus t, Reader.SteadyAt
      (do return (← readNumeral minus).value : Reader φ Value) t := by
    intro minus t
    exact (steadyAt_readNumeral minus t).bind fun n t' => Reader.steadyAt_pure _ t'
  rcases hb with rfl | hb
  · exact (hvalue true t).of_cons readScalarOr_minus
  · exact (hvalue false (b :: t)).congr_cons (readScalarOr_digit hb)

end Scalars

theorem readScalarOr_number {b : UInt8} (hb : b = 0x2D ∨ isDigit b = true)
    (brackets brackets' : Bool → Reader φ Value) (p : Position) (s : Bytes) :
    readScalarOr brackets ⟨p, b :: s⟩ = readScalarOr brackets' ⟨p, b :: s⟩ := by
  rcases hb with rfl | hb
  · rw [readScalarOr_minus, readScalarOr_minus]
  · rw [readScalarOr_digit hb, readScalarOr_digit hb]

/-- **The text of a float** is read within any text as it is read alone. -/
theorem takes_float {brackets : Bool → Reader Empty Value} {rest : Bytes} (hrest : Ended rest)
    {x : Float} (hx : ReadsBack x) :
    Reader.Takes (readScalarOr brackets) (printFloat x) rest (rereadFloat x) := by
  cases hfinite : x.isFinite with
  | false =>
    have htext : printFloat x = ascii "null".toList := if_neg (Bool.eq_false_iff.1 hfinite)
    have hread : parse (ascii "null".toList) = .ok .null := rfl
    rw [rereadFloat, htext, hread]
    exact takes_null rest
  | true =>
    obtain ⟨y, hy⟩ := hx hfinite
    obtain ⟨⟨b, t, htext, hb⟩, hblank⟩ := printFloat_eq hfinite
    obtain ⟨q, t', hread, hleft⟩ := readWhole_eq_ok.1 hy
    obtain ⟨v, i, hraw, hout⟩ := Reader.bind_eq_ok.1 hread
    cases v <;> cases hout
    rw [rereadFloat, hy]
    rw [htext] at hraw hblank ⊢
    obtain ⟨u, hu, htakes⟩ := steadyAt_readScalarOr hb t _ _ _ _ hraw
    -- What was left of the text is blank, and none of its bytes is, so that nothing was left.
    have hnone : t' = [] := by
      refine List.eq_nil_iff_forall_not_mem.2 fun b' hb' => ?_
      have hmem : b' ∈ b :: t := hu ▸ List.mem_append_right u hb'
      cases (hleft b' hb').symm.trans (hblank b' hmem)
    rw [hnone, List.append_nil] at hu
    intro p
    have htaken := htakes rest hrest p
    rw [hnone, ← hu, List.nil_append] at htaken
    rw [List.cons_append, readScalarOr_number hb _ _]
    exact htaken

end IndexFeed.Json
