import IndexFeed.Proofs.Json.Canonical
import IndexFeed.Proofs.Json.Reading

/-!
# Values that were read

A value has no more levels than its reader may open (`height_le_of_readRaw`), and is canonical once
it has been read to the end (`canonical_of_readValue`). Null is only read where its first letter
stands (`readValue_null`).
-/

namespace IndexFeed.Json

open Text (Bytes)

variable {φ α : Type}

/-! ### Between the brackets -/

section Brackets

variable {P : α → Prop} {m : Reader φ α} (hm : ∀ i x j, m i = .ok (x, j) → P x)

include hm

theorem forall_mem_of_readItems {fuel : Bytes} {first : Bool} {i j : Input} {xs : List α}
    (h : readItems m fuel first i = .ok (xs, j)) : ∀ x ∈ xs, P x := by
  induction fuel generalizing first i j xs with
  | nil =>
    cases h
    exact fun x hx => nomatch hx
  | cons _ fuel ih =>
    rw [readItems] at h
    obtain ⟨goOn, i₁, -, h⟩ := Reader.bind_eq_ok.1 h
    cases goOn with
    | false =>
      cases h
      exact fun x hx => nomatch hx
    | true =>
      obtain ⟨x, i₂, hx, h⟩ := Reader.bind_eq_ok.1 h
      obtain ⟨xs, i₃, hxs, h⟩ := Reader.bind_eq_ok.1 h
      cases h
      exact List.forall_mem_cons.2 ⟨hm _ _ _ hx, ih hxs⟩

theorem forall_mem_of_readMembers {fuel : Bytes} {first : Bool} {i j : Input}
    {ms : List (String × α)} (h : readMembers m fuel first i = .ok (ms, j)) :
    ∀ x ∈ ms, P x.2 := by
  induction fuel generalizing first i j ms with
  | nil =>
    cases h
    exact fun x hx => nomatch hx
  | cons _ fuel ih =>
    rw [readMembers] at h
    obtain ⟨goOn, i₁, -, h⟩ := Reader.bind_eq_ok.1 h
    cases goOn with
    | false =>
      cases h
      exact fun x hx => nomatch hx
    | true =>
      obtain ⟨name, i₂, -, h⟩ := Reader.bind_eq_ok.1 h
      obtain ⟨_, i₃, -, h⟩ := Reader.bind_eq_ok.1 h
      obtain ⟨x, i₄, hx, h⟩ := Reader.bind_eq_ok.1 h
      obtain ⟨ms, i₅, hms, h⟩ := Reader.bind_eq_ok.1 h
      cases h
      exact List.forall_mem_cons.2 ⟨hm _ _ _ hx, ih hms⟩

end Brackets

/-! ### Values -/

theorem height_numeral (n : Numeral) : n.value.height = 0 := by
  cases n <;> rfl

theorem numeral_ne_null (n : Numeral) : n.value ≠ .null := by
  cases n <;> exact fun h => nomatch h

/-- What is read is a scalar, and null only where its first letter stands, or it has brackets. -/
theorem scalar_or_brackets {brackets : Bool → Reader φ Value} {i j : Input} {v : Value}
    (h : readScalarOr brackets i = .ok (v, j)) :
    v.height = 0 ∧ (v = .null → (i.dropWhile Reader.isBlank).rest.head? = some 0x6E) ∨
      ∃ isObject k, brackets isObject k = .ok (v, j) := by
  rw [readScalarOr] at h
  obtain ⟨next, k, hpeek, h⟩ := Reader.bind_eq_ok.1 h
  cases hpeek
  generalize hhead : (i.dropWhile Reader.isBlank).rest.head? = next at h
  -- one branch for each first byte; all but the two brackets give a scalar
  cases next with
  | none => cases h
  | some b =>
    simp only at h
    split at h
    · next hn =>
      obtain ⟨_, _, -, h⟩ := Reader.bind_eq_ok.1 h
      obtain ⟨_, _, -, h⟩ := Reader.bind_eq_ok.1 h
      cases h
      exact .inl ⟨rfl, fun _ => congrArg some hn⟩
    split at h
    · obtain ⟨_, _, -, h⟩ := Reader.bind_eq_ok.1 h
      obtain ⟨_, _, -, h⟩ := Reader.bind_eq_ok.1 h
      cases h
      exact .inl ⟨rfl, nofun⟩
    split at h
    · obtain ⟨_, _, -, h⟩ := Reader.bind_eq_ok.1 h
      obtain ⟨_, _, -, h⟩ := Reader.bind_eq_ok.1 h
      cases h
      exact .inl ⟨rfl, nofun⟩
    split at h
    · obtain ⟨_, _, -, h⟩ := Reader.bind_eq_ok.1 h
      obtain ⟨n, _, -, h⟩ := Reader.bind_eq_ok.1 h
      cases h
      exact .inl ⟨height_numeral n, fun hnull => absurd hnull (numeral_ne_null n)⟩
    split at h
    · obtain ⟨n, _, -, h⟩ := Reader.bind_eq_ok.1 h
      cases h
      exact .inl ⟨height_numeral n, fun hnull => absurd hnull (numeral_ne_null n)⟩
    split at h
    · obtain ⟨_, _, -, h⟩ := Reader.bind_eq_ok.1 h
      obtain ⟨s, _, -, h⟩ := Reader.bind_eq_ok.1 h
      cases h
      exact .inl ⟨rfl, nofun⟩
    split at h
    · exact .inr ⟨false, _, h⟩
    split at h
    · exact .inr ⟨true, _, h⟩
    · cases h

theorem readRaw_eq_ok {depth : Nat} {i j : Input} {v : Value}
    (h : (readRaw (depth + 1) : Reader φ Value) i = .ok (v, j)) :
    v.height = 0 ∧ (v = .null → (i.dropWhile Reader.isBlank).rest.head? = some 0x6E) ∨
      (∃ items fuel first k k', v = .array items ∧
        (readItems (readRaw depth) fuel first : Reader φ (List Value)) k = .ok (items, k')) ∨
      ∃ ms fuel first k k', v = .object ms ∧
        (readMembers (readRaw depth) fuel first : Reader φ Members) k = .ok (ms, k') := by
  rcases scalar_or_brackets h with h | ⟨isObject, k, h⟩
  · exact .inl h
  · obtain ⟨_, k₁, -, h⟩ := Reader.bind_eq_ok.1 h
    cases isObject with
    | true =>
      obtain ⟨fuel, k₂, -, h⟩ := Reader.bind_eq_ok.1 h
      obtain ⟨ms, k₃, hms, h⟩ := Reader.bind_eq_ok.1 h
      obtain ⟨_, k₄, -, h⟩ := Reader.bind_eq_ok.1 h
      cases h
      exact .inr (.inr ⟨ms, fuel, true, k₂, k₃, rfl, hms⟩)
    | false =>
      obtain ⟨fuel, k₂, -, h⟩ := Reader.bind_eq_ok.1 h
      obtain ⟨items, k₃, hitems, h⟩ := Reader.bind_eq_ok.1 h
      obtain ⟨_, k₄, -, h⟩ := Reader.bind_eq_ok.1 h
      cases h
      exact .inr (.inl ⟨items, fuel, true, k₂, k₃, rfl, hitems⟩)

/-- **A value has no more levels than its reader may open.** -/
theorem height_le_of_readRaw {depth : Nat} {i j : Input} {v : Value}
    (h : (readRaw depth : Reader φ Value) i = .ok (v, j)) : v.height ≤ depth := by
  induction depth generalizing i j v with
  | zero =>
    rcases scalar_or_brackets h with ⟨hscalar, -⟩ | ⟨_, _, h⟩
    · exact Nat.le_of_eq hscalar
    · cases h
  | succ depth ih =>
    rcases readRaw_eq_ok h with ⟨hscalar, -⟩ | ⟨items, _, _, _, _, rfl, hitems⟩ |
      ⟨ms, _, _, _, _, rfl, hms⟩
    · omega
    · have hall : ∀ v ∈ items, v.height ≤ depth :=
        forall_mem_of_readItems (fun _ _ _ => ih) hitems
      exact Nat.succ_le_succ (Value.itemsHeight_le.2 hall)
    · have hall : ∀ m ∈ ms, m.2.height ≤ depth :=
        forall_mem_of_readMembers (P := fun v => v.height ≤ depth) (fun _ _ _ => ih) hms
      exact Nat.succ_le_succ (Value.membersHeight_le.2 hall)

theorem null_of_readRaw {depth : Nat} {i j : Input}
    (h : (readRaw depth : Reader φ Value) i = .ok (.null, j)) :
    (i.dropWhile Reader.isBlank).rest.head? = some 0x6E := by
  cases depth with
  | zero =>
    rcases scalar_or_brackets h with ⟨-, hnull⟩ | ⟨_, _, hfail⟩
    · exact hnull rfl
    · cases hfail
  | succ depth =>
    rcases readRaw_eq_ok h with ⟨-, hnull⟩ | ⟨_, _, _, _, _, heq, -⟩ | ⟨_, _, _, _, _, heq, -⟩
    · exact hnull rfl
    · cases heq
    · cases heq

section ReadValue

variable {depth : Nat} {i j : Input} {v : Value}
  (h : (readValue depth : Reader φ Value) i = .ok (v, j))

include h

theorem exists_readRaw :
    ∃ w, (readRaw depth : Reader φ Value) i = .ok (w, j) ∧ v = w.canonical := by
  obtain ⟨w, k, hw, hv⟩ := Reader.bind_eq_ok.1 h
  cases hv
  exact ⟨w, hw, rfl⟩

theorem height_le_of_readValue : v.height ≤ depth := by
  obtain ⟨w, hw, rfl⟩ := exists_readRaw h
  exact (Value.height_canonical_le w).trans (height_le_of_readRaw hw)

theorem canonical_of_readValue : v.canonical = v := by
  obtain ⟨w, -, rfl⟩ := exists_readRaw h
  exact Value.canonical_canonical w

theorem ne_null_of_readValue (hnext : (i.dropWhile Reader.isBlank).rest.head? ≠ some 0x6E) :
    v ≠ .null := by
  obtain ⟨w, hw, rfl⟩ := exists_readRaw h
  intro hnull
  cases w <;> cases hnull
  exact hnext (null_of_readRaw hw)

end ReadValue

end IndexFeed.Json
