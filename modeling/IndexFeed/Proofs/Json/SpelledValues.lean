import IndexFeed.Proofs.Json.Brackets
import IndexFeed.Proofs.Json.SpelledNumbers
import IndexFeed.Proofs.Json.SpelledStrings

/-!
# Spelled values

A value is read from each of its spellings, if it has no more levels than may be opened and all its
numbers have a value, and is refused otherwise (`reads_spelled`). So what a text holds is a matter
of the value that it spells, and not of how it spells it (`toOption_parse_padded`).
-/

namespace IndexFeed.Json

open Text (Bytes)
open Reader (Takes Reads)

variable {φ : Type}

theorem opens_spelled {t : Bytes} {v : Tree} (h : Spells t v) : Opens t := by
  cases h with
  | null => exact ⟨0x6E, _, rfl, rfl, by decide⟩
  | bool b => exact opens_print (.bool b)
  | number h =>
    have hunsigned : ∀ {ds : Bytes}, IsUnsigned ds → Opens ds := by
      rintro _ ⟨⟨⟨hne, hwhole⟩, -⟩, -, -⟩
      obtain ⟨b, ds, rfl⟩ := List.exists_cons_of_ne_nil hne
      exact opens_of_isDigit (hwhole b List.mem_cons_self) _
    cases h with
    | plain h => exact hunsigned h
    | minus h => exact ⟨0x2D, _, rfl, rfl, by decide⟩
  | text h =>
    obtain ⟨h⟩ := h
    exact ⟨0x22, _, rfl, rfl, by decide⟩
  | emptyArray hw => exact ⟨0x5B, _, rfl, rfl, by decide⟩
  | array h => exact ⟨0x5B, _, rfl, rfl, by decide⟩
  | emptyObject hw => exact ⟨0x7B, _, rfl, rfl, by decide⟩
  | object h => exact ⟨0x7B, _, rfl, rfl, by decide⟩

/-- A spelling of a member, white space at both ends, is one of its name and its value. -/
theorem padded_member {R : Bytes → Tree → Prop} {depth : Nat} {u : Bytes} {m : String × Tree}
    (h : SpellsMember R u m)
    (hR : ∀ t, R t m.2 → ∀ rest, Ended rest →
      Reads (readRaw depth : Reader φ Value) t rest (m.2.value? depth)) :
    Padded (fun t m => Comes OpensQuote (readMember (readRaw depth) : Reader φ (String × Value)) t
      ((m.2.value? depth).map (m.1, ·))) u m := by
  obtain @⟨name, v, _, _, hpadded, hvalue⟩ := h
  obtain @⟨w, n, w', _, hw, hname, hw'⟩ := hpadded
  obtain @⟨x, t, x', _, hx, hv, hx'⟩ := hvalue
  have hsplit : w ++ (n ++ w') ++ 0x3A :: (x ++ (t ++ x')) =
      w ++ ((n ++ (w' ++ 0x3A :: (x ++ t))) ++ x') := by
    simp
  have hopens : OpensQuote n := by
    obtain ⟨hchars⟩ := hname
    exact ⟨_, rfl⟩
  rw [hsplit]
  exact ⟨hw, comes_member hopens (takes_spelledName hname) hw' fun rest hrest =>
    reads_blank hx (hR t hv rest hrest), hx'⟩

/-- **A value is read from each of its spellings**, or refused if no value is held for it. -/
theorem reads_spelled {depth : Nat} {t : Bytes} {v : Tree} (h : Spells t v) {rest : Bytes}
    (hrest : Ended rest) :
    Reads (readRaw depth : Reader Empty Value) t rest (v.value? depth) := by
  -- on the levels left: what stands in brackets is read with one level less
  induction depth using Nat.strongRecOn generalizing t v rest with
  | _ depth ih =>
    obtain ⟨brackets, hraw⟩ := readRaw_eq (φ := Empty) depth
    cases h with
    | null =>
      rw [hraw, Tree.value?]
      exact takes_null rest
    | bool b =>
      rw [hraw, Tree.value?]
      exact takes_bool b rest
    | number h =>
      rw [hraw, Tree.value?]
      exact reads_number h brackets hrest
    | text h =>
      rw [hraw, Tree.value?]
      exact takes_spelledText h rest
    | emptyArray hw => cases depth with
      | zero => exact reads_tooDeep (.inl rfl) _ rest
      | succ depth =>
        exact reads_array (reads_none separates_nextItem (Nat.zero_lt_succ _) hw)
    | array h => cases depth with
      | zero => exact reads_tooDeep (.inl rfl) _ rest
      | succ depth =>
        refine reads_array (reads_each separates_nextItem rfl (h.imp fun u x hu => hu.imp ?_)
          (length_lt_fuel_commas _ _ rest))
        exact fun t x ht => ⟨opens_spelled ht, fun rest => ih depth (Nat.lt_succ_self _) ht⟩
    | emptyObject hw => cases depth with
      | zero => exact reads_tooDeep (.inr rfl) _ rest
      | succ depth =>
        exact reads_object (reads_none separates_nextMember (Nat.zero_lt_succ _) hw)
    | object h => cases depth with
      | zero => exact reads_tooDeep (.inr rfl) _ rest
      | succ depth =>
        refine reads_object (reads_each separates_nextMember rfl (h.imp fun u m hu => ?_)
          (length_lt_fuel_commas _ _ rest))
        exact padded_member hu fun t ht rest => ih depth (Nat.lt_succ_self _) ht

/-- **What a text holds is a matter of the value that it spells**, and not of the spelling. -/
theorem toOption_parse_padded {t : Bytes} {v : Tree} (h : Padded Spells t v) :
    (parse t).toOption = (v.value? levels).map Value.canonical := by
  obtain ⟨hw, ht, hw'⟩ := h
  have hended := ended_blank hw' ended_nil
  rw [List.append_nil] at hended
  rw [← List.append_assoc]
  exact toOption_parse hw' (reads_blank hw (reads_spelled ht hended))

end IndexFeed.Json
