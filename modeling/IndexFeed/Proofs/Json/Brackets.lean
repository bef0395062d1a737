import IndexFeed.Proofs.Json.Scalars
import IndexFeed.Proofs.Json.Spelling

/-!
# Between brackets

The items of an array and the members of an object are read by one loop (`readEach`), which takes
what stands between brackets, white space and commas included, and gives what the items come to, up
to the first one that is refused (`reads_each`). So an array or an object is read if one more level
may be opened and all that is in it is read (`reads_array`, `reads_object`).
-/

namespace IndexFeed.Json

open Text (Bytes)
open Reader (Takes Reads)

variable {φ α ι : Type}

/-! ### White space -/

theorem Reader.peekToken_bind_blank {w : Bytes} (hw : Blank w) (g : Option UInt8 → Reader φ α)
    (p : Position) (s : Bytes) :
    (peekToken >>= g) ⟨p, w ++ s⟩ = (peekToken >>= g) ⟨p.past w, s⟩ := by
  have hpeek : ∀ (p : Position) (t : Bytes), (peekToken : Reader φ (Option UInt8)) ⟨p, t⟩ =
      .ok ((t.dropWhile isBlank).head?, ⟨p.past (t.takeWhile isBlank), t.dropWhile isBlank⟩) := by
    intro p t
    rw [peekToken, dropWhile_eq]
  rw [bind_of_ok _ (hpeek p (w ++ s)), bind_of_ok _ (hpeek (p.past w) s),
    List.dropWhile_append_of_pos hw.isBlank, List.takeWhile_append_of_pos hw.isBlank,
    Position.past_append]

/-- A reader that looks for its first byte beyond white space is not stopped by it. -/
theorem Reader.Reads.blank {g : Option UInt8 → Reader φ α} {t rest w : Bytes} {o : Option α}
    (h : Reads (peekToken >>= g) t rest o) (hw : Blank w) :
    Reads (peekToken >>= g) (w ++ t) rest o := by
  cases o with
  | none =>
    intro p out
    rw [List.append_assoc, peekToken_bind_blank hw]
    exact h _ out
  | some x =>
    intro p
    rw [List.append_assoc, peekToken_bind_blank hw, h, Position.past_append]

theorem ended_blank {w s : Bytes} (hw : Blank w) (hs : Ended s) : Ended (w ++ s) := by
  cases w with
  | nil => exact hs
  | cons b w =>
    refine ended_cons ?_ (w ++ s)
    rcases hw b List.mem_cons_self with rfl | rfl | rfl | rfl <;> rfl

/-! ### Texts with commas -/

theorem commas_cons (t : Bytes) (ts : List Bytes) :
    commas (t :: ts) = t ++ ts.flatMap (0x2C :: ·) := by
  induction ts generalizing t with
  | nil => exact (List.append_nil t).symm
  | cons t' ts ih =>
    have hnext : commas (t :: t' :: ts) = t ++ 0x2C :: commas (t' :: ts) := rfl
    rw [hnext, ih, List.flatMap_cons]
    rfl

theorem length_lt_fuel_commas (ts : List Bytes) (c : UInt8) (rest : Bytes) :
    ts.length < (0 :: (commas ts ++ c :: rest) : Bytes).length := by
  have hmore : ∀ ts : List Bytes, ts.length ≤ (ts.flatMap (0x2C :: ·)).length := by
    intro ts
    induction ts with
    | nil => exact Nat.le_refl _
    | cons t ts ih =>
      simp only [List.flatMap_cons, List.length_append, List.length_cons]
      omega
  cases ts with
  | nil => exact Nat.zero_lt_succ _
  | cons t ts =>
    have hlength := hmore ts
    simp only [commas_cons, List.length_append, List.length_cons]
    omega

theorem ended_more {c : UInt8} (hc : goesOn c = false) (ts : List Bytes) (rest : Bytes) :
    Ended (ts.flatMap (0x2C :: ·) ++ c :: rest) := by
  cases ts with
  | nil => exact ended_cons hc rest
  | cons t ts => exact ended_cons rfl _

/-! ### The loop -/

/-- The items of an array or the members of an object: `next` goes on to the next one. -/
def readEach (next : Bool → Reader φ Bool) (item : Reader φ α) : Bytes → Bool → Reader φ (List α)
  | [], _ => return []
  | _ :: fuel, first => do
    if ← next first then
      let x ← item
      return x :: (← readEach next item fuel false)
    else return []

def readMember (value : Reader φ α) : Reader φ (String × α) := do
  let name ← readName
  readColon
  return (name, ← value)

theorem readItems_eq (item : Reader φ α) (fuel : Bytes) (first : Bool) :
    readItems item fuel first = readEach nextItem item fuel first := by
  induction fuel generalizing first with
  | nil => rfl
  | cons _ fuel ih =>
    rw [readItems, readEach, ih]

theorem readMembers_eq (value : Reader φ α) (fuel : Bytes) (first : Bool) :
    readMembers value fuel first = readEach nextMember (readMember value) fuel first := by
  induction fuel generalizing first with
  | nil => rfl
  | cons _ fuel ih =>
    rw [readMembers, readEach, ih]
    simp only [readMember, bind_assoc, pure_bind]

/-- What `next` does: it finds the closing bracket or, past a comma if that is wanted, a text that
opens an item. -/
structure Separates (next : Bool → Reader φ Bool) (close : UInt8) (opens : Bytes → Prop) :
    Prop where
  close : ∀ {w}, Blank w → ∀ first rest, Takes (next first) w (close :: rest) false
  first : ∀ {w t}, Blank w → opens t → ∀ rest, Takes (next true) w (t ++ rest) true
  comma : ∀ {w w' t}, Blank w → Blank w' → opens t → ∀ rest,
    Takes (next false) (w ++ 0x2C :: w') (t ++ rest) true

/-- The text opens an item, and `item` makes `o` of it wherever numbers end behind it. -/
structure Comes (opens : Bytes → Prop) (item : Reader φ α) (t : Bytes) (o : Option α) : Prop where
  opens : opens t
  reads : ∀ rest, Ended rest → Reads item t rest o

section Each

variable {next : Bool → Reader φ Bool} {close : UInt8} {opens : Bytes → Prop}
  (hnext : Separates next close opens) (hclose : goesOn close = false) {item : Reader φ α}
  {val : ι → Option α} {rest : Bytes}

include hnext

theorem reads_none {fuel w : Bytes} (hfuel : 0 < fuel.length) (hw : Blank w) :
    Reads (readEach next item fuel true) w (close :: rest) (some []) := by
  obtain ⟨_, fuel, rfl⟩ := List.exists_cons_of_length_pos hfuel
  rw [readEach, ← List.append_nil w]
  refine (hnext.close hw true rest).reads_bind ?_
  exact Reader.takes_pure [] _

include hclose

omit hnext in
theorem reads_item {t w : Bytes} {ts : List Bytes} {x : ι} {xs : List ι} {fuel : Bytes}
    (ht : Comes opens item t (val x)) (hmore : Reads (readEach next item fuel false)
      (w ++ ts.flatMap (0x2C :: ·)) (close :: rest) (xs.mapM val)) (hw : Blank w) :
    Reads (do
        let y ← item
        return y :: (← readEach next item fuel false))
      (t ++ (w ++ ts.flatMap (0x2C :: ·))) (close :: rest)
      ((val x).bind fun y => (xs.mapM val).map (y :: ·)) := by
  have hended : Ended (w ++ ts.flatMap (0x2C :: ·) ++ close :: rest) := by
    rw [List.append_assoc]
    exact ended_blank hw (ended_more hclose ts rest)
  exact (ht.reads _ hended).bind fun y _ => hmore.map (y :: ·)

theorem reads_more {ts : List Bytes} {xs : List ι}
    (h : List.Forall₂ (Padded fun t x => Comes opens item t (val x)) ts xs) {fuel : Bytes}
    (hfuel : ts.length < fuel.length) {w : Bytes} (hw : Blank w) :
    Reads (readEach next item fuel false) (w ++ ts.flatMap (0x2C :: ·)) (close :: rest)
      (xs.mapM val) := by
  induction h generalizing fuel w with
  | nil =>
    obtain ⟨_, fuel, rfl⟩ := List.exists_cons_of_length_pos hfuel
    rw [readEach, List.flatMap_nil, List.mapM_nil]
    refine (hnext.close hw false rest).reads_bind ?_
    exact Reader.takes_pure [] _
  | @cons _ x ts xs hitem hts ih =>
    obtain ⟨_, fuel, rfl⟩ := List.exists_cons_of_length_pos (Nat.zero_lt_of_lt hfuel)
    obtain @⟨w₁, t, w₂, _, hw₁, ht, hw₂⟩ := hitem
    have hsplit : w ++ ((w₁ ++ (t ++ w₂)) :: ts).flatMap (0x2C :: ·) =
        (w ++ 0x2C :: w₁) ++ (t ++ (w₂ ++ ts.flatMap (0x2C :: ·))) := by
      simp
    rw [readEach, hsplit, Tree.mapM_cons]
    refine Takes.reads_bind (x := true) ?_
      (reads_item hclose ht (ih (Nat.lt_of_succ_lt_succ hfuel) hw₂) hw₂)
    rw [List.append_assoc]
    exact hnext.comma hw hw₁ ht.opens _

/-- **What stands between brackets** is read item by item, up to the first one that is refused. -/
theorem reads_each {ts : List Bytes} {xs : List ι}
    (h : List.Forall₂ (Padded fun t x => Comes opens item t (val x)) ts xs) {fuel : Bytes}
    (hfuel : ts.length < fuel.length) :
    Reads (readEach next item fuel true) (commas ts) (close :: rest) (xs.mapM val) := by
  obtain ⟨_, fuel, rfl⟩ := List.exists_cons_of_length_pos (Nat.zero_lt_of_lt hfuel)
  cases h with
  | nil => exact reads_none hnext (Nat.zero_lt_succ _) nofun
  | @cons _ x ts xs hitem hts =>
    obtain @⟨w₁, t, w₂, _, hw₁, ht, hw₂⟩ := hitem
    have hsplit : commas ((w₁ ++ (t ++ w₂)) :: ts) =
        w₁ ++ (t ++ (w₂ ++ ts.flatMap (0x2C :: ·))) := by
      rw [commas_cons]
      simp only [List.append_assoc]
    rw [readEach, hsplit, Tree.mapM_cons]
    refine Takes.reads_bind (x := true) ?_
      (reads_item hclose ht (reads_more hnext hclose hts (Nat.lt_of_succ_lt_succ hfuel) hw₂) hw₂)
    rw [List.append_assoc]
    exact hnext.first hw₁ ht.opens _

end Each

/-! ### Commas -/

theorem nextItem_close (first : Bool) (p : Position) (s : Bytes) :
    (nextItem first : Reader φ Bool) ⟨p, 0x5D :: s⟩ = .ok (false, ⟨p, 0x5D :: s⟩) := rfl

theorem nextItem_first {text : Bytes} (h : Opens text) (p : Position) (s : Bytes) :
    (nextItem true : Reader φ Bool) ⟨p, text ++ s⟩ = .ok (true, ⟨p, text ++ s⟩) := by
  obtain ⟨b, t, rfl, hblank, hclose⟩ := h
  rw [nextItem, List.cons_append, Reader.peekToken_bind_cons p b _ hblank]
  simp only [if_neg hclose, if_true]
  rfl

theorem nextMember_close (first : Bool) (p : Position) (s : Bytes) :
    (nextMember first : Reader φ Bool) ⟨p, 0x7D :: s⟩ = .ok (false, ⟨p, 0x7D :: s⟩) := rfl

section Commas

variable {w : Bytes} (hw : Blank w)

include hw

theorem nextItem_blank (first : Bool) (p : Position) (s : Bytes) :
    (nextItem first : Reader φ Bool) ⟨p, w ++ s⟩ = nextItem first ⟨p.past w, s⟩ :=
  Reader.peekToken_bind_blank hw _ p s

theorem nextMember_blank (first : Bool) (p : Position) (s : Bytes) :
    (nextMember first : Reader φ Bool) ⟨p, w ++ s⟩ = nextMember first ⟨p.past w, s⟩ :=
  Reader.peekToken_bind_blank hw _ p s

end Commas

theorem separates_nextItem : Separates (nextItem : Bool → Reader φ Bool) 0x5D Opens where
  close hw first rest p := by
    rw [nextItem_blank hw, nextItem_close]
  first hw ht rest p := by
    rw [nextItem_blank hw, nextItem_first ht]
  comma {w w' t} hw hw' ht rest p := by
    obtain ⟨b, t, rfl, hblank, hclose⟩ := ht
    rw [List.append_assoc, nextItem_blank hw, nextItem, List.cons_append,
      Reader.peekToken_bind_cons _ 0x2C _ rfl]
    simp only [Bool.false_eq_true, if_false, if_true,
      if_neg (show (0x2C : UInt8) ≠ 0x5D by decide)]
    rw [Reader.drop_bind_cons, Reader.peekToken_bind_blank hw', List.cons_append,
      Reader.peekToken_bind_cons _ b _ hblank]
    simp only [if_neg hclose, Position.past_append]
    rfl

/-- The text begins with a quote. -/
def OpensQuote (t : Bytes) : Prop := ∃ s, t = 0x22 :: s

theorem separates_nextMember : Separates (nextMember : Bool → Reader φ Bool) 0x7D OpensQuote where
  close hw first rest p := by
    rw [nextMember_blank hw, nextMember_close]
  first hw ht rest p := by
    obtain ⟨s, rfl⟩ := ht
    rw [nextMember_blank hw]
    rfl
  comma {w w' t} hw hw' ht rest p := by
    obtain ⟨s, rfl⟩ := ht
    rw [List.append_assoc, nextMember_blank hw, nextMember, List.cons_append,
      Reader.peekToken_bind_cons _ 0x2C _ rfl]
    simp only [Bool.false_eq_true, if_false, if_true,
      if_neg (show (0x2C : UInt8) ≠ 0x7D by decide)]
    rw [Reader.drop_bind_cons, Reader.peekToken_bind_blank hw', List.cons_append,
      Reader.peekToken_bind_cons _ 0x22 _ rfl]
    simp only [if_true, Position.past_append]
    rfl

/-! ### Members -/

theorem takes_readColon_blank {w : Bytes} (hw : Blank w) (rest : Bytes) :
    Takes (readColon : Reader φ Unit) (w ++ [0x3A]) rest () := by
  intro p
  rw [List.append_assoc, readColon, Reader.peekToken_bind_blank hw, Position.past_append]
  rfl

theorem comes_member {value : Reader φ α} {name : String} {t w u : Bytes} {o : Option α}
    (hopens : OpensQuote t) (hname : ∀ rest, Takes (readName : Reader φ String) t rest name)
    (hw : Blank w) (hvalue : ∀ rest, Ended rest → Reads value u rest o) :
    Comes OpensQuote (readMember value) (t ++ (w ++ 0x3A :: u)) (o.map (name, ·)) := by
  refine ⟨?_, fun rest hrest => ?_⟩
  · obtain ⟨s, rfl⟩ := hopens
    exact ⟨_, rfl⟩
  · have hcolon : w ++ 0x3A :: u = w ++ [0x3A] ++ u := by simp
    rw [hcolon]
    refine (hname _).reads_bind ?_
    exact (takes_readColon_blank hw _).reads_bind ((hvalue rest hrest).map (name, ·))

/-! ### Levels -/

theorem Reader.Reads.fuel {f : Bytes → Reader φ α} {t rest : Bytes} {o : Option α}
    (h : Reads (f (0 :: (t ++ rest))) t rest o) : Reads (Reader.fuel >>= f) t rest o := by
  cases o with
  | none => exact fun p out => h p out
  | some x => exact fun p => h p

theorem readRaw_eq (depth : Nat) :
    ∃ brackets, (readRaw depth : Reader φ Value) = readScalarOr brackets := by
  cases depth with
  | zero => exact ⟨_, rfl⟩
  | succ depth => exact ⟨_, rfl⟩

theorem reads_blank {depth : Nat} {t rest w : Bytes} {o : Option Value} (hw : Blank w)
    (h : Reads (readRaw depth : Reader φ Value) t rest o) :
    Reads (readRaw depth : Reader φ Value) (w ++ t) rest o := by
  obtain ⟨brackets, hraw⟩ := readRaw_eq (φ := φ) depth
  rw [hraw] at h ⊢
  exact h.blank hw

section Brackets

variable {depth : Nat} {body rest : Bytes}

theorem reads_array {o : Option (List Value)}
    (h : Reads (readEach nextItem (readRaw depth : Reader φ Value)
      (0 :: (body ++ 0x5D :: rest)) true) body (0x5D :: rest) o) :
    Reads (readRaw (depth + 1) : Reader φ Value) (0x5B :: (body ++ [0x5D])) rest
      (o.map .array) := by
  have hread : ∀ (p : Position) s, (readRaw (depth + 1) : Reader φ Value) ⟨p, 0x5B :: s⟩ =
      (do
        let items ← readItems (readRaw depth) (← Reader.fuel) true
        closeList
        return .array items : Reader φ Value) ⟨p.after 0x5B, s⟩ := fun _ _ => rfl
  refine Reads.of_cons (Reads.fuel ?_) hread
  rw [readItems_eq, List.append_assoc, Option.map_eq_bind]
  refine Reads.bind h fun items _ => ?_
  exact fun _ => rfl

theorem reads_object {o : Option Members}
    (h : Reads (readEach nextMember (readMember (readRaw depth) : Reader φ (String × Value))
      (0 :: (body ++ 0x7D :: rest)) true) body (0x7D :: rest) o) :
    Reads (readRaw (depth + 1) : Reader φ Value) (0x7B :: (body ++ [0x7D])) rest
      (o.map .object) := by
  have hread : ∀ (p : Position) s, (readRaw (depth + 1) : Reader φ Value) ⟨p, 0x7B :: s⟩ =
      (do
        let members ← readMembers (readRaw depth) (← Reader.fuel) true
        closeObject
        return .object members : Reader φ Value) ⟨p.after 0x7B, s⟩ := fun _ _ => rfl
  refine Reads.of_cons (Reads.fuel ?_) hread
  rw [readMembers_eq, List.append_assoc, Option.map_eq_bind]
  refine Reads.bind h fun items _ => ?_
  exact fun _ => rfl

theorem reads_tooDeep {b : UInt8} (hb : b = 0x5B ∨ b = 0x7B) (t rest : Bytes) :
    Reads (readRaw 0 : Reader φ Value) (b :: t) rest none := by
  rintro p out h
  rcases hb with rfl | rfl <;> cases h

end Brackets

end IndexFeed.Json
