import IndexFeed.Proofs.Config.Sources
import Mathlib.Data.List.Infix
import Mathlib.Data.List.TakeWhile

/-!
# Names of variables

The variable of a path is called by the parts of the path, in uppercase and with a double underscore
between them. A part that neither begins nor ends with an underscore and has no two in a row keeps
its own underscores apart from those between parts (`pointed_intercalate`), so the name gives the
path back (`path?_variableOf`). Hence an environment in which no other variable begins with the
prefix makes a layer of one datum, under that path (`name_and_path`).
-/

/-! ### White space -/

namespace IndexFeed.Text

/-- A text without white space at either end. -/
def IsTrimmed (cs : List Char) : Prop :=
  (∀ c, cs.head? = some c → isBlank c = false) ∧ ∀ c, cs.getLast? = some c → isBlank c = false

instance (cs : List Char) : Decidable (IsTrimmed cs) :=
  decidable_of_iff (cs.head?.all (!isBlank ·) = true ∧ cs.getLast?.all (!isBlank ·) = true)
    (by simp [IsTrimmed, Option.all_eq_true])

theorem dropWhile_of_head? {q : Char → Bool} {cs : List Char}
    (h : ∀ c, cs.head? = some c → q c = false) : cs.dropWhile q = cs := by
  refine List.dropWhile_eq_self_iff.2 fun hlength => Bool.eq_false_iff.1 (h cs[0] ?_)
  rw [List.head?_eq_getElem?, List.getElem?_eq_getElem hlength]

theorem IsTrimmed.trimBy_eq {cs : List Char} (h : IsTrimmed cs) : trimBy isBlank cs = cs := by
  have hlast : cs.reverse.dropWhile isBlank = cs.reverse :=
    dropWhile_of_head? (by simpa [List.head?_reverse] using h.2)
  rw [trimBy, dropWhile_of_head? h.1, hlast, List.reverse_reverse]

theorem isTrimmed_of_forall {cs : List Char} (h : ∀ c ∈ cs, isBlank c = false) : IsTrimmed cs :=
  ⟨fun c hc => h c (List.mem_of_head? hc), fun c hc => h c (List.mem_of_getLast? hc)⟩

end IndexFeed.Text

namespace IndexFeed.Config

open Schema (Datum)

namespace Environment

/-! ### Definitions -/

/-- Whether a prefix may hold `c`. -/
def isPrefixChar (c : Char) : Bool := c.isAlphanum || c == '_'

/-- Whether a part of a path may hold `c`, if a variable is to name it. -/
def isPartChar (c : Char) : Bool := c.isLower || c.isDigit || c == '_'

/-- A part of a path that a variable can name. -/
def IsPart (s : String) : Prop :=
  s.toList ≠ [] ∧ (∀ c ∈ s.toList, isPartChar c = true) ∧ s.toList.head? ≠ some '_' ∧
    s.toList.getLast? ≠ some '_' ∧ ¬ ['_', '_'] <:+: s.toList

-- By the characters of the text: the other instance would run through all characters.
instance (s : String) : Decidable (IsPart s) :=
  decidable_of_iff (s.toList ≠ [] ∧ s.toList.all isPartChar = true ∧ s.toList.head? ≠ some '_' ∧
    s.toList.getLast? ≠ some '_' ∧ ¬ ['_', '_'] <:+: s.toList) (by simp [IsPart])

/-- A path that a variable can name. -/
def IsAddress (P : Path) : Prop := P ≠ [] ∧ ∀ s ∈ P, IsPart s

instance (P : Path) : Decidable (IsAddress P) := inferInstanceAs (Decidable (_ ∧ _))

/-- Whether a variable begins with a prefix, the case of ASCII letters and white space around its
name aside. -/
def begins (p : String) (name : String) : Bool :=
  (afterPrefix? p.toList (Text.trimBy Text.isBlank name.toList)).isSome

/-- A name does not begin with white space. -/
def BeginsClear (name : String) : Prop :=
  ∀ c, name.toList.head? = some c → Text.isBlank c = false

instance (name : String) : Decidable (BeginsClear name) :=
  decidable_of_iff (name.toList.head?.all (!Text.isBlank ·) = true)
    (by simp [BeginsClear, Option.all_eq_true])

/-! ### Upper and lower case -/

theorem forall_ascii {Q : Char → Prop} (h : ∀ n < 128, Q (Char.ofNat n)) {c : Char}
    (hc : c.toNat < 128) : Q c := by
  have hQ := h c.toNat hc
  rwa [Char.ofNat_toNat] at hQ

theorem upper_ascii {cs : List Char} (h : ∀ c ∈ cs, c.toNat < 128) :
    Text.upper cs = cs.map Char.toUpper := by
  induction cs with
  | nil => rfl
  | cons c cs ih =>
    obtain ⟨hc, hcs⟩ := List.forall_mem_cons.1 h
    have hchar : Text.upperChar c = [c.toUpper] :=
      forall_ascii (Q := fun c => Text.upperChar c = [c.toUpper]) Text.upperChar_ascii hc
    rw [Text.upper, List.flatMap_cons, hchar, List.map_cons, ← ih hcs]
    rfl

theorem toNat_lt_of_isPrefixChar {c : Char} (h : isPrefixChar c = true) : c.toNat < 128 := by
  unfold isPrefixChar Char.isAlphanum Char.isAlpha Char.isUpper Char.isLower Char.isDigit at h
  simp only [Bool.or_eq_true, Bool.and_eq_true, decide_eq_true_eq, beq_iff_eq,
    UInt32.le_iff_toNat_le] at h
  rcases h with ((⟨-, h⟩ | ⟨-, h⟩) | ⟨-, h⟩) | rfl
  · exact Nat.lt_of_le_of_lt h (by decide)
  · exact Nat.lt_of_le_of_lt h (by decide)
  · exact Nat.lt_of_le_of_lt h (by decide)
  · decide

theorem isPrefixChar_of_isPartChar {c : Char} (h : isPartChar c = true) :
    isPrefixChar c = true := by
  unfold isPartChar at h
  unfold isPrefixChar Char.isAlphanum Char.isAlpha
  simp only [Bool.or_eq_true] at h ⊢
  tauto

theorem toNat_lt_of_isPartChar {c : Char} (h : isPartChar c = true) : c.toNat < 128 :=
  toNat_lt_of_isPrefixChar (isPrefixChar_of_isPartChar h)

theorem toLower_toUpper {c : Char} (h : isPartChar c = true) : c.toUpper.toLower = c :=
  forall_ascii (Q := fun c => isPartChar c = true → c.toUpper.toLower = c) (by decide)
    (toNat_lt_of_isPartChar h) h

theorem isBlank_toUpper {c : Char} (h : isPrefixChar c = true) : Text.isBlank c.toUpper = false :=
  forall_ascii (Q := fun c => isPrefixChar c = true → Text.isBlank c.toUpper = false) (by decide)
    (toNat_lt_of_isPrefixChar h) h

theorem not_isBlank_of_isPrefixChar {c : Char} (h : isPrefixChar c = true) :
    Text.isBlank c = false :=
  forall_ascii (Q := fun c => isPrefixChar c = true → Text.isBlank c = false) (by decide)
    (toNat_lt_of_isPrefixChar h) h

/-! ### Between the parts -/

theorem pointed_cons {c : Char} {cs : List Char} (h : c = '_' → cs.head? ≠ some '_') :
    pointed (c :: cs) = c :: pointed cs := by
  cases cs with
  | nil => rw [pointed]; simp
  | cons d cs =>
    rw [pointed]
    rintro rest rfl hrest
    cases hrest
    exact h rfl rfl

/-- The first double underscore behind a part is the one that ends the part. -/
theorem pointed_append {cs : List Char} (hlast : cs.getLast? ≠ some '_')
    (hsingle : ¬ ['_', '_'] <:+: cs) (rest : List Char) :
    pointed (cs ++ '_' :: '_' :: rest) = cs ++ '.' :: pointed rest := by
  induction cs with
  | nil => rw [List.nil_append, pointed, List.nil_append]
  | cons c cs ih =>
    have hnext : c = '_' → (cs ++ '_' :: '_' :: rest).head? ≠ some '_' := by
      rintro rfl hhead
      cases cs with
      | nil => exact hlast rfl
      | cons d cs =>
        cases hhead
        exact hsingle (List.prefix_append ['_', '_'] cs).isInfix
    have hrest : cs.getLast? ≠ some '_' := by
      cases cs with
      | nil => simp
      | cons d cs => rwa [List.getLast?_cons_cons] at hlast
    rw [List.cons_append, pointed_cons hnext, List.cons_append,
      ih hrest fun h => hsingle (h.trans (List.suffix_cons c cs).isInfix)]

theorem pointed_of_single {cs : List Char} (hsingle : ¬ ['_', '_'] <:+: cs) :
    pointed cs = cs := by
  induction cs with
  | nil => rw [pointed]
  | cons c cs ih =>
    have hnext : c = '_' → cs.head? ≠ some '_' := by
      rintro rfl hhead
      obtain ⟨cs', rfl⟩ := List.head?_eq_some_iff.1 hhead
      exact hsingle (List.prefix_append ['_', '_'] cs').isInfix
    rw [pointed_cons hnext, ih fun h => hsingle (h.trans (List.suffix_cons c cs).isInfix)]

/-- **A point for every double underscore**, between the parts and nowhere else. -/
theorem pointed_intercalate {P : Path} (hP : ∀ s ∈ P, IsPart s) :
    pointed ("__".toList.intercalate (P.map String.toList)) =
      ".".toList.intercalate (P.map String.toList) := by
  induction P with
  | nil => rfl
  | cons s P ih =>
    obtain ⟨⟨-, -, -, hlast, hsingle⟩, hrest⟩ := List.forall_mem_cons.1 hP
    cases P with
    | nil =>
      simp only [List.map_cons, List.map_nil, List.intercalate_singleton]
      exact pointed_of_single hsingle
    | cons t P =>
      have hjoin : ∀ sep : List Char, sep.intercalate ((s :: t :: P).map String.toList) =
          s.toList ++ sep ++ sep.intercalate ((t :: P).map String.toList) :=
        fun _ => List.intercalate_cons_cons
      rw [hjoin, hjoin, ← ih hrest, List.append_assoc, List.append_assoc]
      exact pointed_append hlast hsingle _

end Environment

/-! ### Paths with points -/

namespace Path

theorem pointed_singleton (name : String) : pointed [name] = name := rfl

theorem split_of_not_mem {cs : List Char} (h : '.' ∉ cs) : split cs = [cs] := by
  induction cs with
  | nil => rfl
  | cons c cs ih =>
    have hc : c ≠ '.' := (List.ne_of_not_mem_cons h).symm
    rw [split, if_neg hc, ih (List.not_mem_of_not_mem_cons h)]

theorem split_append {cs : List Char} (h : '.' ∉ cs) (rest : List Char) :
    split (cs ++ '.' :: rest) = cs :: split rest := by
  induction cs with
  | nil => rfl
  | cons c cs ih =>
    have hc : c ≠ '.' := (List.ne_of_not_mem_cons h).symm
    rw [List.cons_append, split, if_neg hc, ih (List.not_mem_of_not_mem_cons h)]

theorem ofPointed_intercalate {P : Path} (hne : P ≠ []) (hP : ∀ s ∈ P, '.' ∉ s.toList) :
    ofPointed (".".toList.intercalate (P.map String.toList)) = P := by
  induction P with
  | nil => exact absurd rfl hne
  | cons s P ih =>
    obtain ⟨hs, hrest⟩ := List.forall_mem_cons.1 hP
    cases P with
    | nil => simp [ofPointed, split_of_not_mem hs, List.intercalate_singleton]
    | cons t P =>
      have hjoin : ".".toList.intercalate ((s :: t :: P).map String.toList) =
          s.toList ++ '.' :: ".".toList.intercalate ((t :: P).map String.toList) :=
        List.intercalate_cons_cons.trans (List.append_assoc ..)
      have hmore := ih (List.cons_ne_nil t P) hrest
      rw [ofPointed] at hmore ⊢
      rw [hjoin, split_append hs, List.map_cons, hmore, String.ofList_toList]

end Path

/-! ### Names and paths -/

namespace Environment

variable {p : String} {P : Path}

theorem forall_mem_intercalate {Q : Char → Prop} {sep : List Char} (hsep : ∀ c ∈ sep, Q c)
    (hP : ∀ s ∈ P, ∀ c ∈ s.toList, Q c) :
    ∀ c ∈ sep.intercalate (P.map String.toList), Q c := by
  induction P with
  | nil => simp [List.intercalate]
  | cons s P ih =>
    obtain ⟨hs, hrest⟩ := List.forall_mem_cons.1 hP
    cases P with
    | nil => simpa [List.intercalate_singleton] using hs
    | cons t P =>
      simp only [List.map_cons, List.intercalate_cons_cons, List.append_assoc, List.mem_append]
      rintro c (hc | hc | hc)
      · exact hs c hc
      · exact hsep c hc
      · exact ih hrest c hc

theorem not_mem_of_isPart {s : String} (h : IsPart s) : '.' ∉ s.toList := fun hpoint =>
  absurd (h.2.1 _ hpoint) (by decide)

theorem underscored_append (cs rest : List Char) :
    underscored (cs ++ rest) = underscored cs ++ underscored rest := List.flatMap_append ..

theorem underscored_of_not_mem {cs : List Char} (h : '.' ∉ cs) : underscored cs = cs := by
  induction cs with
  | nil => rfl
  | cons c cs ih =>
    have hc : c ≠ '.' := (List.ne_of_not_mem_cons h).symm
    rw [underscored, List.flatMap_cons, if_neg hc, ← underscored,
      ih (List.not_mem_of_not_mem_cons h)]
    rfl

/-- **A double underscore for every point**, between the parts and nowhere else. -/
theorem underscored_intercalate (hP : ∀ s ∈ P, '.' ∉ s.toList) :
    underscored (".".toList.intercalate (P.map String.toList)) =
      "__".toList.intercalate (P.map String.toList) := by
  induction P with
  | nil => rfl
  | cons s P ih =>
    obtain ⟨hs, hrest⟩ := List.forall_mem_cons.1 hP
    cases P with
    | nil =>
      simp only [List.map_cons, List.map_nil, List.intercalate_singleton]
      exact underscored_of_not_mem hs
    | cons t P =>
      have hjoin : ∀ sep : List Char, sep.intercalate ((s :: t :: P).map String.toList) =
          s.toList ++ sep ++ sep.intercalate ((t :: P).map String.toList) :=
        fun _ => List.intercalate_cons_cons
      rw [hjoin, hjoin, underscored_append, underscored_append, underscored_of_not_mem hs,
        ih hrest]
      rfl

/-- The parts of a path as the name of a variable joins them. -/
def joined (P : Path) : List Char := "__".toList.intercalate (P.map String.toList)

theorem isPartChar_of_mem_joined (hP : ∀ s ∈ P, IsPart s) : ∀ c ∈ joined P, isPartChar c = true :=
  forall_mem_intercalate (List.all_eq_true.1 (by decide)) fun s hs => (hP s hs).2.1

theorem joined_ne_nil (hP : IsAddress P) : joined P ≠ [] := by
  obtain ⟨hne, hparts⟩ := hP
  obtain ⟨s, P, rfl⟩ := List.exists_cons_of_ne_nil hne
  have hs : s.toList ≠ [] := (hparts s List.mem_cons_self).1
  cases P with
  | nil => simpa [joined, List.intercalate_singleton] using hs
  | cons t P => simp [joined, List.intercalate_cons_cons, hs]

theorem toList_variableOf (hP : ∀ s ∈ P, IsPart s) :
    (variableOf p P.pointed).toList = p.toList ++ (joined P).map Char.toUpper := by
  have hascii : ∀ c ∈ joined P, c.toNat < 128 := fun c hc =>
    toNat_lt_of_isPartChar (isPartChar_of_mem_joined hP c hc)
  rw [variableOf, String.toList_append, String.toList_ofList, Path.pointed,
    String.toList_intercalate, underscored_intercalate fun s hs => not_mem_of_isPart (hP s hs)]
  exact congrArg (p.toList ++ ·) (upper_ascii hascii)

theorem lower_upper_joined (hP : ∀ s ∈ P, IsPart s) :
    lower ((joined P).map Char.toUpper) = joined P := by
  rw [lower, List.map_map]
  refine (List.map_congr_left fun c hc => ?_).trans (List.map_id _)
  exact toLower_toUpper (isPartChar_of_mem_joined hP c hc)

theorem isBlank_of_mem_upper (hP : ∀ s ∈ P, IsPart s) :
    ∀ c ∈ (joined P).map Char.toUpper, Text.isBlank c = false := by
  intro c hc
  obtain ⟨d, hd, rfl⟩ := List.mem_map.1 hc
  exact isBlank_toUpper (isPrefixChar_of_isPartChar (isPartChar_of_mem_joined hP d hd))

theorem trimBy_variableOf (hp : BeginsClear p) (hP : IsAddress P) :
    Text.trimBy Text.isBlank (variableOf p P.pointed).toList =
      p.toList ++ (joined P).map Char.toUpper := by
  have hupper := isBlank_of_mem_upper hP.2
  rw [toList_variableOf hP.2]
  refine Text.IsTrimmed.trimBy_eq ⟨fun c hc => ?_, fun c hc => ?_⟩
  · rw [List.head?_append] at hc
    cases hhead : p.toList.head? with
    | none =>
      rw [hhead] at hc
      exact hupper c (List.mem_of_head? hc)
    | some d =>
      rw [hhead] at hc
      exact hp c (hhead.trans hc)
  · have hne : (joined P).map Char.toUpper ≠ [] := by simpa using joined_ne_nil hP
    rw [List.getLast?_append_of_ne_nil _ hne] at hc
    exact hupper c (List.mem_of_getLast? hc)

theorem ofPointed_joined (hP : IsAddress P) :
    Path.ofPointed (Text.trimBy Text.isBlank (pointed (joined P))) = P := by
  obtain ⟨hne, hparts⟩ := hP
  have hblank : ∀ c ∈ ".".toList.intercalate (P.map String.toList), Text.isBlank c = false :=
    forall_mem_intercalate (List.forall_mem_singleton.2 (by decide)) fun s hs c hc =>
      not_isBlank_of_isPrefixChar (isPrefixChar_of_isPartChar ((hparts s hs).2.1 c hc))
  rw [joined, pointed_intercalate hparts, (Text.isTrimmed_of_forall hblank).trimBy_eq]
  exact Path.ofPointed_intercalate hne fun s hs => not_mem_of_isPart (hparts s hs)

theorem afterPrefix?_append (p rest : List Char) : afterPrefix? p (p ++ rest) = some rest := by
  rw [afterPrefix?, lower, lower, List.map_append,
    if_pos (List.isPrefixOf_iff_prefix.2 (List.prefix_append ..)), List.drop_left]

/-- **The name of a variable gives the path back**, if its prefix does not begin with white
space. -/
theorem path?_variableOf (hp : BeginsClear p) (hP : IsAddress P) :
    path? p (variableOf p P.pointed) = some P := by
  have hfull : P.any String.isEmpty = false := by
    refine List.any_eq_false.2 fun s hs => ?_
    have hs : s.toList ≠ [] := (hP.2 s hs).1
    simpa [String.isEmpty_iff] using fun h : s = "" => hs (by rw [h]; rfl)
  simp only [path?, trimBy_variableOf hp hP, afterPrefix?_append, lower_upper_joined hP.2,
    ofPointed_joined hP, hfull]
  rfl

theorem variableOf_injective (hp : BeginsClear p) {Q : Path} (hP : IsAddress P)
    (hQ : IsAddress Q) (h : variableOf p P.pointed = variableOf p Q.pointed) : P = Q := by
  have hsame : some P = some Q := by
    rw [← path?_variableOf hp hP, h, path?_variableOf hp hQ]
  exact Option.some.inj hsame

/-! ### The layer of an environment -/

theorem entriesOf_of_not_begins {name : String} (h : begins p name = false) (value : String) :
    entriesOf p name value = [] := by
  have hnone : path? p name = none := by
    rw [path?, Option.not_isSome_iff_eq_none.1 (Bool.eq_false_iff.1 h)]
  rw [entriesOf, hnone]

/-- Variables that set nothing under a name make no difference there. -/
theorem get?_entries_filter {env : Environment} {keep : String × String → Bool} {n : String}
    (h : ∀ e ∈ env, keep e = false → Entries.get? (entriesOf p e.1 e.2) n = none) :
    Entries.get? (entries p (env.filter keep)) n = Entries.get? (entries p env) n := by
  have hfold : ∀ start start' : Entries, Entries.get? start n = Entries.get? start' n →
      Entries.get? ((env.filter keep).foldl
          (fun es e => mergeEntries .replace es (entriesOf p e.1 e.2)) start) n =
        Entries.get? (env.foldl
          (fun es e => mergeEntries .replace es (entriesOf p e.1 e.2)) start') n := by
    induction env with
    | nil => exact fun _ _ hstart => hstart
    | cons e env ih =>
      intro start start' hstart
      obtain ⟨he, henv⟩ := List.forall_mem_cons.1 h
      have hsorted := (tidy_entriesOf p e.1 e.2).sorted
      cases hkeep : keep e with
      | true =>
        rw [List.filter_cons_of_pos hkeep, List.foldl_cons, List.foldl_cons]
        refine ih henv _ _ ?_
        rw [get?_mergeEntries hsorted, get?_mergeEntries hsorted, hstart]
      | false =>
        rw [List.filter_cons_of_neg (by simp [hkeep]), List.foldl_cons]
        refine ih henv _ _ ?_
        rw [get?_mergeEntries hsorted, he hkeep, hstart]
        rfl
  exact hfold [] [] rfl

theorem mapping_entriesOf {name : String} (hP : P ≠ []) (h : path? p name = some P)
    (value : String) :
    Datum.mapping (entriesOf p name value) = P.nest (Inline.read value) := by
  obtain ⟨first, P, rfl⟩ := List.exists_cons_of_ne_nil hP
  rw [entriesOf, h]
  rfl

/-- A single variable under the prefix makes a layer of its value, under its path. -/
theorem entries_of_single {env : Environment} {name value : String}
    (h : env.filter (fun e => begins p e.1) = [(name, value)]) :
    entries p env = entriesOf p name value := by
  have hsorted := (tidy_entriesOf p name value).sorted
  refine Entries.ext_of_sorted (tidy_entries p env).sorted hsorted fun n => ?_
  have hfilter : Entries.get? (entries p (env.filter fun e => begins p e.1)) n =
      Entries.get? (entries p env) n :=
    get?_entries_filter fun e _ hbegins => by rw [entriesOf_of_not_begins hbegins]; rfl
  rw [← hfilter, h]
  exact congrArg (Entries.get? · n) (mergeEntries_nil .replace hsorted)

/-! ### Prefixes -/

/-- A word of which prefixes are made. -/
def IsPrefixWord (p : String) : Prop := p ≠ "" ∧ ∀ c ∈ p.toList, isPrefixChar c = true

instance (p : String) : Decidable (IsPrefixWord p) :=
  decidable_of_iff (p ≠ "" ∧ p.toList.all isPrefixChar = true) (by simp [IsPrefixWord])

theorem beginsClear_normalPrefix (h : IsPrefixWord p) : BeginsClear (normalPrefix p) := by
  have hupper : Text.upper p.toList = p.toList.map Char.toUpper :=
    upper_ascii fun c hc => toNat_lt_of_isPrefixChar (h.2 c hc)
  have hblank : ∀ c ∈ p.toList.map Char.toUpper, Text.isBlank c = false := by
    intro c hc
    obtain ⟨d, hd, rfl⟩ := List.mem_map.1 hc
    exact isBlank_toUpper (h.2 d hd)
  intro c hc
  rw [normalPrefix, String.toList_ofList, hupper] at hc
  split at hc
  · exact hblank c (List.mem_of_head? hc)
  · rcases List.mem_append.1 (List.mem_of_head? hc) with hc | hc
    · exact hblank c hc
    · rw [List.mem_singleton.1 hc]
      decide

/-- What is no mapping and stands in a nest stands at the end of its path. -/
theorem prefix_of_find?_nest {P Q : Path} {d v : Datum} (h : Q.find? (P.nest d) = some v)
    (hv : isMapping v = false) : P <+: Q := by
  induction P generalizing Q with
  | nil => exact List.nil_prefix
  | cons name P ih =>
    cases Q with
    | nil =>
      cases h
      cases hv
    | cons n Q =>
      obtain ⟨d', hd', hrest⟩ := Option.bind_eq_some_iff.1 h
      rw [Entries.get?_cons] at hd'
      split at hd'
      · next heq =>
        cases hd'
        exact List.cons_prefix_cons.2 ⟨heq.symm, ih hrest⟩
      · cases hd'

/-- **Names and paths.** Let a single variable of an environment begin with a prefix, the one of a
path. Then the layer of the environment is the value of that variable under the path and nothing
else. And no two paths have the same variable. -/
theorem name_and_path {p : String} (hp : IsPrefixWord p) {P : Path} (hP : IsAddress P) :
    (∀ env value, env.filter (fun e => begins (normalPrefix p) e.1) =
        [(variableOf (normalPrefix p) P.pointed, value)] →
      ∀ l : Layers, ∃ l' es, l.add env (.environment p) = .ok l' ∧
        l'.entries = l.entries ++ [es] ∧ Datum.mapping es = P.nest (Inline.read value) ∧
        ∀ Q v, Path.find? Q (.mapping es) = some v → isMapping v = false → P <+: Q) ∧
      ∀ Q : Path, IsAddress Q →
        variableOf (normalPrefix p) Q.pointed = variableOf (normalPrefix p) P.pointed → Q = P := by
  have hclear := beginsClear_normalPrefix hp
  constructor
  · intro env value honly l
    have hlayer : Datum.mapping (entries (normalPrefix p) env) = P.nest (Inline.read value) := by
      rw [entries_of_single honly]
      exact mapping_entriesOf hP.1 (path?_variableOf hclear hP) value
    have hadd : l.add env (.environment p) = .ok
        { l.push (entries (normalPrefix p) env) with
          prefixes := if normalPrefix p ∈ l.prefixes then l.prefixes
            else l.prefixes ++ [normalPrefix p] } := by
      rw [Layers.add, if_neg (by simpa [String.isEmpty_iff] using hp.1)]
    refine ⟨_, _, hadd, rfl, hlayer, fun Q v hfind hv => ?_⟩
    rw [hlayer] at hfind
    exact prefix_of_find?_nest hfind hv
  · intro Q hQ h
    exact variableOf_injective hclear hQ hP h

/-- Underscores within the parts and around the prefix, and another variable beside the one. -/
theorem name_and_path_underscores :
    variableOf (normalPrefix "_my_app") "a_b.c1.d_e_f" = "_MY_APP_A_B__C1__D_E_F" ∧
      ∃ l es, Layers.add [("_MY_APP_A_B__C1__D_E_F", "[1]"), ("PATH", "x")] {}
          (.environment "_my_app") = .ok l ∧
        l.entries = [es] ∧
        Datum.mapping es = Path.nest ["a_b", "c1", "d_e_f"] (Inline.read "[1]") := by
  have hname : variableOf (normalPrefix "_my_app") "a_b.c1.d_e_f" =
      "_MY_APP_A_B__C1__D_E_F" := by decide +kernel
  have honly : [("_MY_APP_A_B__C1__D_E_F", "[1]"), ("PATH", "x")].filter
      (fun e => begins (normalPrefix "_my_app") e.1) =
        [(variableOf (normalPrefix "_my_app") (Path.pointed ["a_b", "c1", "d_e_f"]), "[1]")] := by
    decide +kernel
  obtain ⟨l, es, hadd, hentries, hnest, -⟩ :=
    (name_and_path (p := "_my_app") (P := ["a_b", "c1", "d_e_f"]) (by decide) (by decide)).1
      _ "[1]" honly {}
  exact ⟨hname, l, es, hadd, hentries, hnest⟩

end Environment

end IndexFeed.Config
