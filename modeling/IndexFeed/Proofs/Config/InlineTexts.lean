import IndexFeed.Proofs.Config.VariableNames
import IndexFeed.Proofs.Schema.FieldByField
import Mathlib.Data.List.TakeWhile

/-!
# Texts that stand for themselves

An inline value that is meant as a text stands for that text, unless the text is the writing of
something else (`isLiteral`): a truth value, a number, or a whole list, mapping or quoted text. Main
statements: a text without white space around it that is no literal is read as itself
(`read_of_not_isLiteral`), and a literal never gives its own text (`value?_read_of_isLiteral`).
-/

namespace IndexFeed.Config.Inline

open Schema (Datum Form Reading)

/-! ### Definitions -/

/-- The number that a text is the writing of: a float, if it has a point, or a whole number. -/
def number? (cs : List Char) : Option Datum :=
  (if cs.contains '.' then (Decimal.readFloat? cs).map Datum.float else none) <|> wholeNumber? cs

/-- Whether `c` begins a list, a mapping or a quoted text. -/
def isOpening (c : Char) : Bool := c = '[' || c = '\x7b' || c = '"' || c = '\x27'

/-- Whether a list, a mapping or a quoted text takes up the whole text. -/
def spellsBracketed (cs : List Char) : Bool :=
  cs.head?.any isOpening && (value? (steps cs.length) cs).any (·.2.isEmpty)

/-- Whether a text is the writing of something other than itself. -/
def isLiteral (s : String) : Bool :=
  s = "true" || s = "false" || (number? s.toList).isSome || spellsBracketed s.toList

/-- Whether the writing of a number may hold `c`. -/
def isNumeralChar (c : Char) : Bool :=
  c.isDigit || c = '+' || c = '-' || c = '.' || c = 'e' || c = 'E'

/-! ### Numbers -/

section Numbers

variable {cs : List Char} {c : Char}

theorem isNumeralChar_of_isDigit (h : c.isDigit = true) : isNumeralChar c = true := by
  simp [isNumeralChar, h]

theorem isNumeralChar_or_mem_splitSign (h : c ∈ cs) :
    isNumeralChar c = true ∨ c ∈ (Decimal.splitSign cs).2 := by
  unfold Decimal.splitSign
  split
  · rcases List.mem_cons.1 h with rfl | h
    · exact .inl (by decide)
    · exact .inr h
  · rcases List.mem_cons.1 h with rfl | h
    · exact .inl (by decide)
    · exact .inr h
  · exact .inr h

theorem isNumeralChar_of_readInt? {n : Int} (h : Decimal.readInt? cs = some n) (hc : c ∈ cs) :
    isNumeralChar c = true := by
  rcases isNumeralChar_or_mem_splitSign hc with hc | hc
  · exact hc
  · unfold Decimal.readInt? at h
    simp only at h
    split at h
    · cases h
    · next hdigits =>
      simp only [Bool.or_eq_true, not_or, Bool.not_eq_true', Bool.not_eq_false] at hdigits
      exact isNumeralChar_of_isDigit (List.all_eq_true.1 hdigits.2 c hc)

theorem isNumeralChar_of_wholeNumber? {d : Datum} (h : wholeNumber? cs = some d) (hc : c ∈ cs) :
    isNumeralChar c = true := by
  unfold wholeNumber? at h
  split at h
  · next n hn => exact isNumeralChar_of_readInt? hn hc
  · cases h

theorem isNumeralChar_of_readExponent? {n : Int} (h : Decimal.readExponent? cs = some n)
    (hc : c ∈ cs) : isNumeralChar c = true := by
  unfold Decimal.readExponent? at h
  split at h
  · cases hc
  · next d rest =>
    split at h
    · next hd =>
      rcases List.mem_cons.1 hc with rfl | hc
      · simp only [Bool.or_eq_true, decide_eq_true_eq] at hd
        rcases hd with rfl | rfl <;> decide
      · exact isNumeralChar_of_readInt? h hc
    · cases h

theorem isDigit_or_mem_dropWhile (h : c ∈ cs) :
    c.isDigit = true ∨ c ∈ cs.dropWhile Char.isDigit := by
  rw [← List.takeWhile_append_dropWhile (p := Char.isDigit) (l := cs)] at h
  rcases List.mem_append.1 h with h | h
  · exact .inl (List.mem_takeWhile_imp h)
  · exact .inr h

theorem isNumeralChar_of_readFinite? {x : Float} (h : Decimal.readFinite? cs = some x)
    (hc : c ∈ cs) : isNumeralChar c = true := by
  rcases isNumeralChar_or_mem_splitSign hc with hc | hc
  · exact hc
  rcases isDigit_or_mem_dropWhile hc with hc | hc
  · exact isNumeralChar_of_isDigit hc
  unfold Decimal.readFinite? at h
  simp only at h
  split at h
  · next tail htail =>
    rw [htail] at hc
    rcases List.mem_cons.1 hc with rfl | hc
    · decide
    rcases isDigit_or_mem_dropWhile hc with hc | hc
    · exact isNumeralChar_of_isDigit hc
    split at h
    · cases h
    · obtain ⟨e, he, -⟩ := Option.map_eq_some_iff.1 h
      exact isNumeralChar_of_readExponent? he hc
  · split at h
    · cases h
    · obtain ⟨e, he, -⟩ := Option.map_eq_some_iff.1 h
      exact isNumeralChar_of_readExponent? he hc

/-- Numbers with a point have no names. -/
theorem isNumeralChar_of_readFloat? {x : Float} (h : Decimal.readFloat? cs = some x)
    (hpoint : '.' ∈ cs) (hc : c ∈ cs) : isNumeralChar c = true := by
  have hmem : '.' ∈ (Decimal.splitSign cs).2.map Char.toLower := by
    refine List.mem_map.2 ⟨'.', ?_, by decide⟩
    unfold Decimal.splitSign
    split
    · simpa using hpoint
    · simpa using hpoint
    · exact hpoint
  have hname : ∀ name : List Char, '.' ∉ name →
      (Decimal.splitSign cs).2.map Char.toLower ≠ name :=
    fun name hname heq => hname (heq ▸ hmem)
  unfold Decimal.readFloat? at h
  simp only [hname "inf".toList (by decide), hname "infinity".toList (by decide),
    hname "nan".toList (by decide), decide_false, Bool.or_self, Bool.false_eq_true, if_false] at h
  exact isNumeralChar_of_readFinite? h hc

theorem number?_eq_some {d : Datum} (h : number? cs = some d) :
    (∃ x, '.' ∈ cs ∧ Decimal.readFloat? cs = some x ∧ d = .float x) ∨ wholeNumber? cs = some d := by
  rw [number?, Option.orElse_eq_orElse, Option.orElse_eq_or, Option.or_eq_some_iff] at h
  rcases h with h | ⟨-, h⟩
  · split at h
    · next hpoint =>
      obtain ⟨x, hx, rfl⟩ := Option.map_eq_some_iff.1 h
      exact .inl ⟨x, List.contains_iff_mem.1 hpoint, hx, rfl⟩
    · cases h
  · exact .inr h

theorem isNumeralChar_of_number? {d : Datum} (h : number? cs = some d) (hc : c ∈ cs) :
    isNumeralChar c = true := by
  rcases number?_eq_some h with ⟨x, hpoint, hx, -⟩ | hd
  · exact isNumeralChar_of_readFloat? hx hpoint hc
  · exact isNumeralChar_of_wholeNumber? hd hc

/-- A number is no text. -/
theorem value?_number (r : Reading) {d : Datum} (h : number? cs = some d) :
    Form.text.value? r d = none := by
  rcases number?_eq_some h with ⟨x, -, -, rfl⟩ | hd
  · rfl
  · unfold wholeNumber? at hd
    split at hd
    · split at hd <;> split at hd <;> cases hd <;> rfl
    · cases hd

theorem bare_eq (cs : List Char) :
    bare cs = (number? cs).getD (.text (String.ofList cs)) := rfl

end Numbers

/-! ### Quoted texts -/

theorem length_of_numbered? {count : Nat} {cs rest : List Char} {c : Char}
    (h : numbered? count cs = some (c, rest)) : rest.length ≤ cs.length := by
  obtain ⟨d, -, h⟩ := Option.map_eq_some_iff.1 h
  cases h
  exact (List.length_drop ..).trans_le (Nat.sub_le ..)

/-- A quoted text ends at a quote, or one character of it is followed by the others. -/
theorem quotedRest_eq_some {fuel : Nat} {cs ds rest : List Char}
    (h : quotedRest (fuel + 1) cs = some (ds, rest)) :
    (ds = [] ∧ cs = '"' :: rest) ∨ ∃ c ds' cs', ds = c :: ds' ∧ cs'.length < cs.length ∧
      quotedRest fuel cs' = some (ds', rest) := by
  have hmore : ∀ {x : Option (Char × List Char)},
      (∀ out, x = some out → out.2.length < cs.length) →
      (x.bind fun e => (quotedRest fuel e.2).bind fun out => some (e.1 :: out.1, out.2)) =
        some (ds, rest) →
      ∃ c ds' cs', ds = c :: ds' ∧ cs'.length < cs.length ∧
        quotedRest fuel cs' = some (ds', rest) := by
    intro x hx h
    obtain ⟨⟨c, cs'⟩, hc, h⟩ := Option.bind_eq_some_iff.1 h
    obtain ⟨⟨ds', rest'⟩, hrest, h⟩ := Option.bind_eq_some_iff.1 h
    cases h
    exact ⟨c, ds', cs', rfl, hx _ hc, hrest⟩
  cases cs with
  | nil => cases h
  | cons c cs =>
    unfold quotedRest at h
    split at h
    · next hquote =>
      cases h
      exact .inl ⟨rfl, congrArg (· :: rest) hquote⟩
    refine .inr ?_
    split at h
    · split at h
      · cases h
      · next e cs =>
        -- behind the backslash and the letter
        have hbehind : cs.length < (c :: e :: cs).length := by
          simp only [List.length_cons]
          omega
        dsimp only at h
        split at h
        · exact hmore (fun out hout => (length_of_numbered? hout).trans_lt hbehind) h
        split at h
        · exact hmore (fun out hout => (length_of_numbered? hout).trans_lt hbehind) h
        · refine hmore (fun out hout => ?_) h
          obtain ⟨d, -, rfl⟩ := Option.map_eq_some_iff.1 hout
          exact hbehind
    split at h
    · refine hmore (x := some (c, cs)) (fun out hout => ?_) h
      cases hout
      exact Nat.lt_succ_self _
    · cases h

/-- Each character of a quoted text takes up one character or more, and the last quote one. -/
theorem length_of_quotedRest {fuel : Nat} {cs ds rest : List Char}
    (h : quotedRest fuel cs = some (ds, rest)) : ds.length + rest.length < cs.length := by
  induction fuel generalizing cs ds with
  | zero => cases h
  | succ fuel ih =>
    rcases quotedRest_eq_some h with ⟨rfl, rfl⟩ | ⟨c, ds', cs', rfl, hshort, hrest⟩
    · simp
    · have hlength := ih hrest
      rw [List.length_cons]
      omega

/-! ### Values -/

theorem isBlank_of_isAsciiBlank {c : Char} (h : Text.isAsciiBlank c = true) :
    Text.isBlank c = true := by
  simp only [Text.isAsciiBlank, Text.isBlank, Bool.or_eq_true, beq_iff_eq, Bool.and_eq_true,
    decide_eq_true_eq] at h ⊢
  omega

theorem skipBlank_of_isTrimmed {cs : List Char} (h : Text.IsTrimmed cs) : skipBlank cs = cs := by
  refine Text.dropWhile_of_head? fun c hc => Bool.eq_false_iff.2 fun hblank => ?_
  exact absurd (isBlank_of_isAsciiBlank hblank) (by simp [h.1 c hc])

/-- A trimmed text does not end in white space that could be skipped. -/
theorem eq_nil_of_skipBlank {cs rest : List Char} (h : Text.IsTrimmed cs) (hrest : rest <:+ cs)
    (hskip : skipBlank rest = []) : rest = [] := by
  by_contra hne
  obtain ⟨c, hc⟩ := Option.ne_none_iff_exists'.1 (mt List.getLast?_eq_none_iff.1 hne)
  have hblank : Text.isAsciiBlank c = true :=
    List.dropWhile_eq_nil_iff.1 hskip c (List.mem_of_getLast? hc)
  have hlast : cs.getLast? = some c := by
    obtain ⟨front, rfl⟩ := hrest
    rw [List.getLast?_append_of_ne_nil _ hne, hc]
  exact absurd (isBlank_of_isAsciiBlank hblank) (by simp [h.2 c hlast])

theorem afterWord?_eq_some {w cs rest : List Char} (h : afterWord? w cs = some rest) :
    cs = w ++ rest := by
  unfold afterWord? at h
  split at h
  · next hprefix =>
    cases h
    exact (List.prefix_iff_eq_append.1 (List.isPrefixOf_iff_prefix.1 hprefix)).symm
  · cases h

section Values

variable {fuel : Nat} {cs rest : List Char}

theorem value?_of_true (h : Text.IsTrimmed cs) (hword : afterWord? "true".toList cs = some rest) :
    value? (fuel + 1) cs = some (.flag true, skipBlank rest) := by
  rw [value?, skipBlank_of_isTrimmed h, hword]
  rfl

theorem value?_of_false (h : Text.IsTrimmed cs) (htrue : afterWord? "true".toList cs = none)
    (hword : afterWord? "false".toList cs = some rest) :
    value? (fuel + 1) cs = some (.flag false, skipBlank rest) := by
  rw [value?, skipBlank_of_isTrimmed h, htrue, hword]
  rfl

theorem value?_of_bare (h : Text.IsTrimmed cs) (htrue : afterWord? "true".toList cs = none)
    (hfalse : afterWord? "false".toList cs = none) (hbare : cs.head?.any isOpening = false) :
    value? (fuel + 1) cs =
      some (bare (Text.trimBy Text.isBlank (cs.takeWhile (!isSeparator ·))),
        skipBlank (cs.dropWhile (!isSeparator ·))) := by
  rw [value?, skipBlank_of_isTrimmed h, htrue, hfalse]
  cases cs with
  | nil => rfl
  | cons c cs =>
    have hc : isOpening c = false := hbare
    simp only [isOpening, Bool.or_eq_false_iff, decide_eq_false_iff_not] at hc
    obtain ⟨⟨⟨hlist, hmapping⟩, hquote⟩, hchar⟩ := hc
    have hscalar : scalar? (c :: cs) =
        some (bare (Text.trimBy Text.isBlank ((c :: cs).takeWhile (!isSeparator ·))),
          (c :: cs).dropWhile (!isSeparator ·)) := by
      unfold scalar?
      split
      · next heq => exact absurd (List.cons.inj heq).1 hquote
      · next heq => exact absurd (List.cons.inj heq).1 hchar
      · next heq => exact absurd (List.cons.inj heq).1 hchar
      · rfl
    simp only
    split
    · next heq => exact absurd (List.cons.inj heq).1 hlist
    · next heq => exact absurd (List.cons.inj heq).1 hmapping
    · rw [hscalar]
      rfl

theorem length_of_quoted? {t : String} (h : quoted? cs = some (t, rest)) :
    t.toList.length < cs.length := by
  obtain ⟨cs₁, hquote, h⟩ := Option.bind_eq_some_iff.1 h
  obtain ⟨⟨ds, cs₂⟩, hrest, h⟩ := Option.bind_eq_some_iff.1 h
  cases h
  have hshort := length_of_quotedRest hrest
  cases cs with
  | nil => cases hquote
  | cons c cs =>
    rw [after?] at hquote
    split at hquote
    · cases hquote
      simp only [String.toList_ofList, List.length_cons]
      omega
    · cases hquote

/-- No quoted text or character stands for its own writing. -/
theorem scalar?_of_quote (r : Reading) {c : Char} (hc : c = '"' ∨ c = '\x27') {d : Datum}
    (h : scalar? (c :: cs) = some (d, rest)) :
    Form.text.value? r d ≠ some (String.ofList (c :: cs)) := by
  rcases hc with rfl | rfl
  · obtain ⟨⟨t, cs'⟩, ht, htext⟩ := Option.map_eq_some_iff.1 h
    cases htext
    intro heq
    have hlength := length_of_quoted? ht
    cases heq
    simp at hlength
  · cases cs with
    | nil => cases h
    | cons e cs =>
      obtain ⟨cs', -, hchar⟩ := Option.map_eq_some_iff.1 h
      cases hchar
      cases r with
      | configuration =>
        intro heq
        have hlength := congrArg (fun t => t.toList.length) (Option.some.inj heq)
        simp at hlength
      | _ =>
        intro heq
        cases heq

/-- No list, mapping or quoted text stands for its own writing. -/
theorem value?_of_opening (r : Reading) (h : Text.IsTrimmed cs)
    (hopen : cs.head?.any isOpening = true) {d : Datum}
    (hd : value? (fuel + 1) cs = some (d, rest)) :
    Form.text.value? r d ≠ some (String.ofList cs) := by
  rw [value?, skipBlank_of_isTrimmed h] at hd
  cases cs with
  | nil => cases hopen
  | cons c cs =>
    have hc : isOpening c = true := hopen
    simp only [isOpening, Bool.or_eq_true, decide_eq_true_eq] at hc
    have hback : ∀ {x : Option (Datum × List Char)},
        (x.bind fun out => some (out.1, skipBlank out.2)) = some (d, rest) →
          ∃ rest', x = some (d, rest') := by
      intro x hx
      obtain ⟨⟨d', rest'⟩, hvalue, hret⟩ := Option.bind_eq_some_iff.1 hx
      cases hret
      exact ⟨rest', hvalue⟩
    -- a bracket opens a sequence or a mapping, and quotes are not part of the text they enclose
    rcases hc with ((rfl | rfl) | rfl) | rfl
    · obtain ⟨rest', hvalue⟩ := hback hd
      obtain ⟨items, -, hitems⟩ := Option.map_eq_some_iff.1 hvalue
      cases hitems
      intro heq
      cases heq
    · obtain ⟨rest', hvalue⟩ := hback hd
      obtain ⟨entries, -, hentries⟩ := Option.map_eq_some_iff.1 hvalue
      cases hentries
      intro heq
      cases heq
    · obtain ⟨rest', hvalue⟩ := hback hd
      exact scalar?_of_quote r (.inl rfl) hvalue
    · obtain ⟨rest', hvalue⟩ := hback hd
      exact scalar?_of_quote r (.inr rfl) hvalue

end Values

/-! ### Texts -/

section Texts

variable {s : String}

theorem read_of_value? {d : Datum} {rest : List Char}
    (h : value? (steps s.toList.length) s.toList = some (d, rest)) :
    read s = if rest = [] then d else .text s := by
  unfold read
  simp only [h]
  cases rest <;> rfl

theorem eq_of_skipBlank {w : String} {rest : List Char} (h : Text.IsTrimmed s.toList)
    (hword : afterWord? w.toList s.toList = some rest) (hskip : skipBlank rest = []) : s = w := by
  have hs := afterWord?_eq_some hword
  rw [eq_nil_of_skipBlank h ⟨w.toList, hs.symm⟩ hskip, List.append_nil] at hs
  exact String.toList_inj.1 hs

/-- **A text that is no literal is read as itself.** -/
theorem read_of_not_isLiteral (h : Text.IsTrimmed s.toList) (hs : isLiteral s = false) :
    read s = .text s := by
  simp only [isLiteral, Bool.or_eq_false_iff, decide_eq_false_iff_not] at hs
  obtain ⟨⟨⟨htrue, hfalse⟩, hnumber⟩, hbracketed⟩ := hs
  cases hvalue : value? (steps s.toList.length) s.toList with
  | none =>
    unfold read
    simp only [hvalue]
  | some out =>
    obtain ⟨d, rest⟩ := out
    rw [read_of_value? hvalue]
    split
    · next hrest =>
      subst hrest
      cases hopen : s.toList.head?.any isOpening with
      | true => simp [spellsBracketed, hopen, hvalue] at hbracketed
      | false =>
        rw [steps] at hvalue
        cases hword : afterWord? "true".toList s.toList with
        | some rest =>
          rw [value?_of_true h hword] at hvalue
          exact absurd (eq_of_skipBlank h hword (Prod.mk.inj (Option.some.inj hvalue)).2) htrue
        | none => cases hword' : afterWord? "false".toList s.toList with
          | some rest =>
            rw [value?_of_false h hword hword'] at hvalue
            exact absurd (eq_of_skipBlank h hword' (Prod.mk.inj (Option.some.inj hvalue)).2) hfalse
          | none =>
            rw [value?_of_bare h hword hword' hopen] at hvalue
            obtain ⟨rfl, hskip⟩ := Prod.mk.inj (Option.some.inj hvalue)
            -- without a separator the whole text is bare
            have hdrop := eq_nil_of_skipBlank h (List.dropWhile_suffix _) hskip
            have htake := List.takeWhile_append_dropWhile (p := (!isSeparator ·)) (l := s.toList)
            rw [hdrop, List.append_nil] at htake
            rw [htake, h.trimBy_eq, bare_eq,
              Option.not_isSome_iff_eq_none.1 (Bool.eq_false_iff.1 hnumber), Option.getD_none,
              String.ofList_toList]
    · rfl

theorem not_isSeparator_of_isNumeralChar {c : Char} (h : isNumeralChar c = true) :
    isSeparator c = false := by
  refine Bool.eq_false_iff.2 fun hc => ?_
  simp only [isSeparator, Bool.or_eq_true, decide_eq_true_eq] at hc
  rcases hc with (((rfl | rfl) | rfl) | rfl) | rfl <;> exact absurd h (by decide)

theorem not_isOpening_of_isNumeralChar {c : Char} (h : isNumeralChar c = true) :
    isOpening c = false := by
  refine Bool.eq_false_iff.2 fun hc => ?_
  simp only [isOpening, Bool.or_eq_true, decide_eq_true_eq] at hc
  rcases hc with ((rfl | rfl) | rfl) | rfl <;> exact absurd h (by decide)

/-- The writing of a number has no words, brackets and separators in it. -/
theorem read_of_number? (h : Text.IsTrimmed s.toList) {d : Datum}
    (hd : number? s.toList = some d) : read s = d := by
  have hchars : ∀ c ∈ s.toList, isNumeralChar c = true := fun c hc =>
    isNumeralChar_of_number? hd hc
  have hword : ∀ (w : List Char) (c : Char), c ∈ w → isNumeralChar c = false →
      afterWord? w s.toList = none := by
    intro w c hc hnot
    cases hafter : afterWord? w s.toList with
    | none => rfl
    | some rest =>
      have hmem : c ∈ s.toList := by
        rw [afterWord?_eq_some hafter]
        exact List.mem_append_left rest hc
      exact absurd (hchars c hmem) (by simp [hnot])
  have hopen : s.toList.head?.any isOpening = false := by
    cases hhead : s.toList.head? with
    | none => rfl
    | some c => exact not_isOpening_of_isNumeralChar (hchars c (List.mem_of_head? hhead))
  have hbare : ∀ c ∈ s.toList, (!isSeparator c) = true := fun c hc => by
    rw [not_isSeparator_of_isNumeralChar (hchars c hc)]
    rfl
  have hsteps : value? (steps s.toList.length) s.toList =
      some (bare (Text.trimBy Text.isBlank (s.toList.takeWhile (!isSeparator ·))),
        skipBlank (s.toList.dropWhile (!isSeparator ·))) :=
    value?_of_bare h (hword "true".toList 't' (by decide) (by decide))
      (hword "false".toList 'f' (by decide) (by decide)) hopen
  rw [List.takeWhile_eq_self_iff.2 hbare, List.dropWhile_eq_nil_iff.2 hbare, h.trimBy_eq, bare_eq,
    hd] at hsteps
  exact (read_of_value? hsteps).trans (if_pos rfl)

/-- **A literal is not read as its own text**, even where it is read as a text. -/
theorem value?_read_of_isLiteral (r : Reading) (h : Text.IsTrimmed s.toList)
    (hs : isLiteral s = true) : Form.text.value? r (read s) ≠ some s := by
  simp only [isLiteral, Bool.or_eq_true, decide_eq_true_eq] at hs
  rcases hs with ((rfl | rfl) | hs) | hs
  · have hread : read "true" = .flag true := rfl
    rw [hread]
    nofun
  · have hread : read "false" = .flag false := rfl
    rw [hread]
    nofun
  · obtain ⟨d, hd⟩ := Option.isSome_iff_exists.1 hs
    rw [read_of_number? h hd, value?_number r hd]
    nofun
  · obtain ⟨hopen, hwhole⟩ := Bool.and_eq_true_iff.1 hs
    obtain ⟨⟨d, rest⟩, hvalue, hrest⟩ := (Option.any_eq_true _ _).1 hwhole
    rw [read_of_value? hvalue, if_pos (List.isEmpty_iff.1 hrest)]
    have hne := value?_of_opening r h hopen hvalue
    rwa [String.ofList_toList] at hne

end Texts

end IndexFeed.Config.Inline
