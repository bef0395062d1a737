import IndexFeed.Proofs.Json.Rearranged
import IndexFeed.Proofs.Json.SpelledValues
import IndexFeed.Proofs.Key.Buffers

/-!
# Documents written in another way

A projection sees no more of a body than the canonical value that it spells
(`verdict_of_spelling`). So a document that is written with other white space, with its strings
escaped in another way or with its members in another order keeps its key (`key_of_rewritten`).
-/

namespace IndexFeed.Projection

open Text (Bytes)

variable (p : Projection) {v : Json.Tree}

theorem tuple?_of_spelling {body : Bytes} (h : Json.Padded Json.Spells body v) :
    (p.tuple? body).toOption = (v.canonical? Json.levels).map p.tuple := by
  rw [Json.Tree.canonical?, ← Json.toOption_parse_padded h, tuple?]
  cases Json.parse body <;> rfl

/-- **What a projection says of a body** is a matter of the value that the body spells. -/
theorem verdict_of_spelling {r : Request} (h : Json.Padded Json.Spells r.body v)
    (buffer : Option Buffer) :
    (∀ w, v.canonical? Json.levels = some w →
      p.evaluator.verdict r buffer = .answered (p.tuple w).encode) ∧
      (v.canonical? Json.levels = none → ∃ e, p.evaluator.verdict r buffer = .failed e) := by
  have htuple := p.tuple?_of_spelling h
  rw [p.verdict_eq]
  cases hread : p.tuple? r.body with
  | error e =>
    rw [hread] at htuple
    refine ⟨fun w hw => ?_, fun _ => ⟨e, rfl⟩⟩
    rw [hw] at htuple
    cases htuple
  | ok tuple =>
    rw [hread] at htuple
    refine ⟨fun w hw => ?_, fun hnone => ?_⟩
    · rw [hw] at htuple
      obtain rfl : tuple = p.tuple w := Option.some.inj htuple
      rfl
    · rw [hnone] at htuple
      cases htuple

/-- **A document that is written in another way keeps its key.** Take two bodies that spell the same
value, but for the order in which the members of its objects come, at any depth, no object having a
name twice: their white space and the way their strings are escaped may differ as well. For any
fields, and whatever else is asked with the bodies, both are answered with the same key or both
without one; or both fail, which they do only if what they spell has too many levels or a number
that is out of range. -/
theorem key_of_rewritten (v v' : Json.Tree) (h : Json.Rearranged v v') (r r' : Request)
    (hbody : Json.Padded Json.Spells r.body v) (hbody' : Json.Padded Json.Spells r'.body v')
    (buffer buffer' : Option Buffer) :
    (∃ w, v.canonical? Json.levels = some w ∧
        p.evaluator.verdict r buffer = .answered (p.tuple w).encode ∧
        p.evaluator.verdict r' buffer' = .answered (p.tuple w).encode) ∨
      v.canonical? Json.levels = none ∧
        (∃ e, p.evaluator.verdict r buffer = .failed e) ∧
        ∃ e, p.evaluator.verdict r' buffer' = .failed e := by
  have hsame := h.canonical?_eq Json.levels
  obtain ⟨hanswer, hfail⟩ := p.verdict_of_spelling hbody buffer
  obtain ⟨hanswer', hfail'⟩ := p.verdict_of_spelling hbody' buffer'
  cases hvalue : v.canonical? Json.levels with
  | some w => exact .inl ⟨w, rfl, hanswer w hvalue, hanswer' w (hsame.symm.trans hvalue)⟩
  | none => exact .inr ⟨rfl, hfail hvalue, hfail' (hsame.symm.trans hvalue)⟩

section Sample

open Json (Tree Spells SpellsText Padded)

/-- A document with an object in an array. -/
def nested : Tree := .object [("a", .array [.object [("x", .number [0x31]), ("y", .text "A")]])]

/-- The document with the members of the inner object in another order. -/
def reordered : Tree := .object [("a", .array [.object [("y", .text "A"), ("x", .number [0x31])]])]

/-- The document without white space and escapes. -/
def compactBody : Bytes := Json.ascii "\x7b\"a\":[\x7b\"x\":1,\"y\":\"A\"\x7d]\x7d".toList

/-- The document in the other order, with white space and an escape. -/
def spacedBody : Bytes :=
  Json.ascii " \x7b\"a\":[ \x7b\"y\":\"\\u0041\",\"x\":1\x7d\n]\x7d".toList

def about (body : Bytes) : Request := ⟨[], body, (Event.mutation 0 [] body).metadata⟩

theorem rearranged_nested : Json.Rearranged nested reordered := by
  have hinner : Json.Rearranged (.object [("x", .number [0x31]), ("y", .text "A")])
      (.object [("y", .text "A"), ("x", .number [0x31])]) :=
    .object (by decide) (.cons (.mk (.number rfl)) (.cons (.mk (.text "A")) .nil)) (.swap ..)
  exact .object (by decide) (.cons (.mk (.array (.cons hinner .nil))) .nil) (.refl _)

theorem spellsText_letter {c : Char} {t : Bytes} (h : Json.SpellsChar t c) :
    SpellsText (0x22 :: ([t].flatten ++ [0x22])) (String.ofList [c]) := by
  refine .mk ?_
  rw [String.toList_ofList]
  exact .cons h .nil

theorem padded_letter (c : Char) (h : 0x20 ≤ c.toNat ∧ c ≠ '"' ∧ c ≠ '\\') :
    Padded SpellsText (0x22 :: ([Text.encodeChar c].flatten ++ [0x22])) (String.ofList [c]) :=
  .bare (spellsText_letter (.plain h.1 h.2.1 h.2.2))

theorem padded_one : Padded Spells [0x31] (.number [0x31]) := by
  have hwhole : Json.IsWhole [0x31] := ⟨⟨nofun, List.forall_mem_singleton.2 rfl⟩, nofun⟩
  exact .bare (.number (.plain (.mk hwhole .none .none)))

theorem padded_compactBody : Padded Spells compactBody nested := by
  have hletter : Spells (Json.ascii "\"A\"".toList) (.text "A") :=
    .text (spellsText_letter (c := 'A') (.plain (by decide) (by decide) (by decide)))
  have hinner : Padded Spells (Json.ascii "\x7b\"x\":1,\"y\":\"A\"\x7d".toList)
      (.object [("x", .number [0x31]), ("y", .text "A")]) :=
    .bare (.object (.cons (.mk (padded_letter 'x' (by decide)) padded_one)
      (.cons (.mk (padded_letter 'y' (by decide)) (.bare hletter)) .nil)))
  exact .bare (.object (.cons (.mk (padded_letter 'a' (by decide))
    (.bare (.array (.cons hinner .nil)))) .nil))

theorem padded_spacedBody : Padded Spells spacedBody reordered := by
  have hspace : Json.Blank [0x20] := by simp [Json.Blank]
  have hlineFeed : Json.Blank [0x0A] := by simp [Json.Blank]
  have hletter : Spells (Json.ascii "\"\\u0041\"".toList) (.text "A") :=
    .text (spellsText_letter (c := 'A')
      (.number (x := 0x30) (y := 0x30) (z := 0x34) (u := 0x31) rfl))
  have hinner : Spells (Json.ascii "\x7b\"y\":\"\\u0041\",\"x\":1\x7d".toList)
      (.object [("y", .text "A"), ("x", .number [0x31])]) :=
    .object (.cons (.mk (padded_letter 'y' (by decide)) (.bare hletter))
      (.cons (.mk (padded_letter 'x' (by decide)) padded_one) .nil))
  have hpadded : Padded Spells
      (Json.ascii " \x7b\"y\":\"\\u0041\",\"x\":1\x7d\n".toList)
      (.object [("y", .text "A"), ("x", .number [0x31])]) :=
    .mk hspace hinner hlineFeed
  have houter : Spells (Json.ascii
      "\x7b\"a\":[ \x7b\"y\":\"\\u0041\",\"x\":1\x7d\n]\x7d".toList) reordered :=
    .object (.cons (.mk (padded_letter 'a' (by decide)) (.bare (.array (.cons hpadded .nil)))) .nil)
  exact .mk hspace houter nofun

theorem key_of_rewritten_reordered :
    let p : Projection := ⟨["b", "a"]⟩
    let key : Bytes := Json.ascii "[null,[\x7b\"x\":1,\"y\":\"A\"\x7d]]".toList
    Json.Rearranged nested reordered ∧ Padded Spells (about compactBody).body nested ∧
      Padded Spells (about spacedBody).body reordered ∧
      ∀ buffer buffer',
        p.evaluator.verdict (about compactBody) buffer = .answered (some key) ∧
          p.evaluator.verdict (about spacedBody) buffer' = .answered (some key) := by
  intro p key
  refine ⟨rearranged_nested, padded_compactBody, padded_spacedBody, fun buffer buffer' => ?_⟩
  obtain ⟨w, hw, hkey, hkey'⟩ | ⟨hnone, -⟩ := key_of_rewritten p nested reordered
    rearranged_nested (about compactBody) (about spacedBody) padded_compactBody padded_spacedBody
    buffer buffer'
  · have hprinted : (p.tuple w).encode = some key := by
      cases hw
      decide +kernel
    rw [hprinted] at hkey hkey'
    exact ⟨hkey, hkey'⟩
  · cases hnone

end Sample

end IndexFeed.Projection
