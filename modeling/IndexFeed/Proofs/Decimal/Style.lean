import IndexFeed.Decimal.Style
import Mathlib.Data.List.Basic

/-!
# Characters of a decimal

In any style a decimal is written with digits, points, signs and the letter of an exponent
(`isWritten_of_mem_writeFloat`), and begins with a digit, but for its minus (`exists_writeFloat`).
-/

namespace IndexFeed.Decimal

/-- Whether decimals may be written with a character. -/
def isWritten (c : Char) : Bool := c.isDigit || c == '.' || c == 'e' || c == '+' || c == '-'

theorem isWritten_of_isDigit {c : Char} (h : c.isDigit = true) : isWritten c = true := by
  rw [isWritten, h]
  rfl

theorem isDigit_of_mem_digits {n : Nat} {c : Char} (h : c ∈ digits n) : c.isDigit = true :=
  Nat.isDigit_of_mem_toDigits (by decide) (by decide) h

section Forms

variable {ds : List Char} {e : Int} {c : Char}

theorem mem_plain {keepPoint : Bool} (h : c ∈ plain keepPoint ds e) :
    c ∈ ds ∨ c = '0' ∨ c = '.' := by
  unfold plain at h
  split at h
  · have hmem : c = '0' ∨ c = '.' ∨ c ∈ List.replicate (-e - 1).toNat '0' ∨ c ∈ ds := by
      simpa using h
    rcases hmem with h | h | h | h
    · exact .inr (.inl h)
    · exact .inr (.inr h)
    · exact .inr (.inl (List.eq_of_mem_replicate h))
    · exact .inl h
  split at h
  · rcases List.mem_append.1 h with h | h
    · rcases List.mem_append.1 h with h | h
      · exact .inl h
      · exact .inr (.inl (List.eq_of_mem_replicate h))
    · split at h
      · have hmem : c = '.' ∨ c = '0' := by simpa using h
        exact .inr hmem.symm
      · cases h
  · rcases List.mem_append.1 h with h | h
    · exact .inl (List.mem_of_mem_take h)
    · rcases List.mem_cons.1 h with h | h
      · exact .inr (.inr h)
      · exact .inl (List.mem_of_mem_drop h)

theorem mem_scientific (h : c ∈ scientific ds e) :
    c ∈ ds ∨ c ∈ digits e.natAbs ∨ c = '.' ∨ c = 'e' ∨ c = '+' ∨ c = '-' := by
  have hexponent : c ∈ 'e' :: (if e < 0 then '-' else '+') :: digits e.natAbs →
      c ∈ digits e.natAbs ∨ c = 'e' ∨ c = '+' ∨ c = '-' := by
    intro h
    rcases List.mem_cons.1 h with h | h
    · exact .inr (.inl h)
    rcases List.mem_cons.1 h with h | h
    · split at h
      · exact .inr (.inr (.inr h))
      · exact .inr (.inr (.inl h))
    · exact .inl h
  unfold scientific at h
  rcases List.mem_append.1 h with h | h
  · match ds with
    | [] => cases h
    | [_] => exact .inl h
    | d :: d' :: rest =>
      have hmem : c = d ∨ c = '.' ∨ c ∈ d' :: rest := by simpa using h
      rcases hmem with h | h | h
      · exact .inl (List.mem_cons.2 (.inl h))
      · exact .inr (.inr (.inl h))
      · exact .inl (List.mem_cons_of_mem _ h)
  · rcases hexponent h with h | h | h
    · exact .inr (.inl h)
    · exact .inr (.inr (.inr (.inl h)))
    · exact .inr (.inr (.inr (.inr h)))

/-- Digits that are written out begin with a digit: a zero in front of the point, or their first. -/
theorem exists_plain (keepPoint : Bool) {d : Char} (hd : d.isDigit = true) (ds : List Char) :
    ∃ c cs, plain keepPoint (d :: ds) e = c :: cs ∧ c.isDigit = true := by
  unfold plain
  split
  · exact ⟨'0', _, rfl, rfl⟩
  · next hneg =>
    split
    · exact ⟨d, _, rfl, hd⟩
    · obtain ⟨n, hn⟩ : ∃ n, (e + 1).toNat = n + 1 := ⟨e.toNat, by omega⟩
      rw [hn]
      exact ⟨d, _, rfl, hd⟩

theorem exists_scientific {d : Char} (hd : d.isDigit = true) (ds : List Char) :
    ∃ c cs, scientific (d :: ds) e = c :: cs ∧ c.isDigit = true := by
  unfold scientific
  cases ds with
  | nil => exact ⟨d, _, rfl, hd⟩
  | cons d' ds => exact ⟨d, _, rfl, hd⟩

end Forms

section Write

variable (s : Style) (d : Scaled)

theorem write_eq : ∃ e, s.write d = plain s.keepPoint (digits d.coefficient) e ∨
    s.write d = scientific (digits d.coefficient) e := by
  let e : Int := if d.coefficient = 0 then 0 else d.exponent + (digits d.coefficient).length - 1
  have hwrite : s.write d = if s.writesOut e then plain s.keepPoint (digits d.coefficient) e
      else scientific (digits d.coefficient) e := rfl
  refine ⟨e, ?_⟩
  rw [hwrite]
  split
  · exact .inl rfl
  · exact .inr rfl

theorem isWritten_of_mem_write {c : Char} (h : c ∈ s.write d) : isWritten c = true := by
  obtain ⟨e, hplain | hscientific⟩ := write_eq s d
  · rw [hplain] at h
    rcases mem_plain h with h | rfl | rfl
    · exact isWritten_of_isDigit (isDigit_of_mem_digits h)
    · rfl
    · rfl
  · rw [hscientific] at h
    rcases mem_scientific h with h | h | rfl | rfl | rfl | rfl
    · exact isWritten_of_isDigit (isDigit_of_mem_digits h)
    · exact isWritten_of_isDigit (isDigit_of_mem_digits h)
    all_goals rfl

theorem exists_write : ∃ c cs, s.write d = c :: cs ∧ c.isDigit = true := by
  have hne : digits d.coefficient ≠ [] := Nat.toDigits_ne_nil
  obtain ⟨c, cs, hds⟩ := List.exists_cons_of_ne_nil hne
  have hc : c.isDigit = true := by
    refine isDigit_of_mem_digits (n := d.coefficient) ?_
    rw [hds]
    exact List.mem_cons_self
  obtain ⟨e, hplain | hscientific⟩ := write_eq s d
  · rw [hplain, hds]
    exact exists_plain s.keepPoint hc cs
  · rw [hscientific, hds]
    exact exists_scientific hc cs

theorem isWritten_of_mem_writeFloat {x : Float} {c : Char} (h : c ∈ s.writeFloat x) :
    isWritten c = true := by
  rcases List.mem_append.1 h with h | h
  · split at h
    · rw [List.mem_singleton.1 h]
      rfl
    · cases h
  · exact isWritten_of_mem_write s _ h

theorem exists_writeFloat (x : Float) :
    ∃ c cs, s.writeFloat x = c :: cs ∧ (c = '-' ∨ c.isDigit = true) := by
  obtain ⟨c, cs, hcs, hc⟩ := exists_write s (shortest x)
  unfold Style.writeFloat
  rw [hcs]
  split
  · exact ⟨'-', c :: cs, rfl, .inl rfl⟩
  · exact ⟨c, cs, rfl, .inr hc⟩

end Write

end IndexFeed.Decimal
