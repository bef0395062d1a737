import IndexFeed.Json.Reader

/-!
# Readers on texts

What a reader makes of the text in front of it: it takes the text and leaves what follows
(`Reader.Takes`). Numbers, which no closing byte ends, are taken only in front of something that
does not go on with them (`Ended`). A reader that is steady on a text (`Reader.SteadyAt`) reads it
within another as it reads it on its own. Other readers are known by what they make of a text, be it
that they refuse it (`Reader.Reads`).
-/

namespace IndexFeed.Json

open Text (Bytes)

variable {φ α β : Type}

/-- The place after `text`, which begins at `p`. -/
def Position.past (p : Position) (text : Bytes) : Position := text.foldl Position.after p

/-- Whether a byte goes on with a number that has begun. -/
def goesOn (b : UInt8) : Bool := isDigit b || b == 0x2E || b == 0x65 || b == 0x45

/-- Whether a number ends ahead of `rest`. -/
def Ended (rest : Bytes) : Prop := ∀ b t, rest = b :: t → goesOn b = false

namespace Reader

/-- The reader takes `text` ahead of `rest`, wherever that is, and gives `x`. -/
def Takes (m : Reader φ α) (text rest : Bytes) (x : α) : Prop :=
  ∀ p, m ⟨p, text ++ rest⟩ = .ok (x, ⟨p.past text, rest⟩)

/-- The reader takes `text` ahead of `rest` and gives what `o` holds, and fails there if that is
nothing. -/
def Reads (m : Reader φ α) (text rest : Bytes) : Option α → Prop
  | some x => m.Takes text rest x
  | none => ∀ p out, m ⟨p, text ++ rest⟩ ≠ .ok out

/-- The reader, if it succeeds on `t` anywhere, takes the same of it and gives the same wherever `t`
stands ahead of something that ends a number. -/
def SteadyAt (m : Reader φ α) (t : Bytes) : Prop :=
  ∀ p x q t', m ⟨p, t⟩ = .ok (x, ⟨q, t'⟩) →
    ∃ u, t = u ++ t' ∧ ∀ rest, Ended rest → m.Takes u (t' ++ rest) x

end Reader

theorem Position.past_append (p : Position) (t t' : Bytes) :
    p.past (t ++ t') = (p.past t).past t' :=
  List.foldl_append

/-! ### Ends of numbers -/

theorem ended_nil : Ended [] := by
  intro b t h
  cases h

theorem ended_cons {b : UInt8} (h : goesOn b = false) (rest : Bytes) : Ended (b :: rest) := by
  intro b' t ht
  cases ht
  exact h

/-! ### Single steps -/

namespace Reader

section Steps

variable (f : α → Reader φ β) (p : Position) (b : UInt8) (s : Bytes)

@[simp] theorem pure_apply (x : α) (i : Input) : (pure x : Reader φ α) i = .ok (x, i) := rfl

theorem bind_of_ok {m : Reader φ α} {i j : Input} {x : α} (h : m i = .ok (x, j)) :
    (m >>= f) i = f x j := by
  change (m i >>= fun y => f y.1 y.2) = _
  rw [h]
  rfl

theorem bind_congr_left {f : α → Reader φ β} {m m' : Reader φ α} {i : Input} (h : m i = m' i) :
    (m >>= f) i = (m' >>= f) i := by
  change (m i >>= fun y => f y.1 y.2) = (m' i >>= fun y => f y.1 y.2)
  rw [h]

theorem bind_eq_ok {f : α → Reader φ β} {m : Reader φ α} {i j : Input} {y : β} :
    (m >>= f) i = .ok (y, j) ↔ ∃ x k, m i = .ok (x, k) ∧ f x k = .ok (y, j) := by
  cases h : m i with
  | error e =>
    constructor
    · intro hbind
      change (m i >>= fun y => f y.1 y.2) = _ at hbind
      rw [h] at hbind
      cases hbind
    · rintro ⟨x, k, hm, -⟩
      cases hm
  | ok out =>
    obtain ⟨x, k⟩ := out
    rw [bind_of_ok f h]
    constructor
    · exact fun hf => ⟨x, k, rfl, hf⟩
    · rintro ⟨x', k', hm, hf⟩
      cases hm
      exact hf

theorem bind_ne_ok {f : α → Reader φ β} {m : Reader φ α} (h : ∀ x k out, f x k ≠ .ok out)
    (i : Input) (out : β × Input) : (m >>= f) i ≠ .ok out := by
  intro hout
  obtain ⟨x, k, -, hf⟩ := bind_eq_ok.1 hout
  exact h x k out hf

variable {g : Option UInt8 → Reader φ β}

@[simp] theorem take_bind_cons : (take >>= g) ⟨p, b :: s⟩ = g (some b) ⟨p.after b, s⟩ := rfl

@[simp] theorem peek_bind_cons : (peek >>= g) ⟨p, b :: s⟩ = g (some b) ⟨p, b :: s⟩ := rfl

@[simp] theorem peek_bind_nil : (peek >>= g) ⟨p, []⟩ = g none ⟨p, []⟩ := rfl

@[simp] theorem drop_bind_cons (f : Unit → Reader φ β) :
    (drop >>= f) ⟨p, b :: s⟩ = f () ⟨p.after b, s⟩ := rfl

@[simp] theorem fuel_bind (f : Bytes → Reader φ β) (i : Input) :
    (fuel >>= f) i = f (0 :: i.rest) i := rfl

theorem dropWhile_cons_of_not {q : UInt8 → Bool} (h : q b = false) :
    (⟨p, b :: s⟩ : Input).dropWhile q = ⟨p, b :: s⟩ := by
  simp [Input.dropWhile, Input.dropWhile.go, h]

@[simp] theorem peekToken_bind_cons (h : isBlank b = false) :
    (peekToken >>= g) ⟨p, b :: s⟩ = g (some b) ⟨p, b :: s⟩ := by
  refine bind_of_ok g ?_
  simp [peekToken, dropWhile_cons_of_not p b s h]

end Steps

/-! ### Taking a text -/

theorem takes_pure (x : α) (rest : Bytes) : Takes (pure x : Reader φ α) [] rest x := fun _ => rfl

theorem Takes.bind_apply {m : Reader φ α} {t rest : Bytes} {x : α} (h : Takes m t rest x)
    (f : α → Reader φ β) (p : Position) :
    (m >>= f) ⟨p, t ++ rest⟩ = f x ⟨p.past t, rest⟩ :=
  bind_of_ok f (h p)

theorem Takes.bind {m : Reader φ α} {f : α → Reader φ β} {t t' rest : Bytes} {x : α} {y : β}
    (h : Takes m t (t' ++ rest) x) (h' : Takes (f x) t' rest y) :
    Takes (m >>= f) (t ++ t') rest y := by
  intro p
  rw [List.append_assoc, h.bind_apply, h', Position.past_append]

/-! ### Reading or failing -/

section Reads

variable {m : Reader φ α} {f : α → Reader φ β} {t t' rest : Bytes}

theorem Reads.bind {o : Option α} {g : α → Option β} (h : Reads m t (t' ++ rest) o)
    (hf : ∀ x, o = some x → Reads (f x) t' rest (g x)) :
    Reads (m >>= f) (t ++ t') rest (o.bind g) := by
  cases o with
  | none =>
    intro p out hout
    rw [List.append_assoc] at hout
    obtain ⟨x, k, hm, -⟩ := bind_eq_ok.1 hout
    exact h p _ hm
  | some x =>
    have hnext := hf x rfl
    rw [Option.bind_some]
    cases hg : g x with
    | none =>
      rw [hg] at hnext
      intro p out hout
      rw [List.append_assoc, Takes.bind_apply h] at hout
      exact hnext _ out hout
    | some y =>
      rw [hg] at hnext
      exact Takes.bind h hnext

theorem Takes.reads_bind {x : α} {o : Option β} (h : Takes m t (t' ++ rest) x)
    (hf : Reads (f x) t' rest o) : Reads (m >>= f) (t ++ t') rest o := by
  refine Reads.bind (o := some x) (g := fun _ => o) h fun y hy => ?_
  cases hy
  exact hf

/-- A byte that was taken is no matter to what comes after it. -/
theorem Reads.of_cons {m' : Reader φ α} {o : Option α} (h : Reads m t rest o) {b : UInt8}
    (hm : ∀ p s, m' ⟨p, b :: s⟩ = m ⟨p.after b, s⟩) : Reads m' (b :: t) rest o := by
  cases o with
  | none => exact fun p out hout => h (p.after b) out ((hm p _).symm.trans hout)
  | some x => exact fun p => (hm p _).trans (h (p.after b))

theorem Reads.congr_cons {m' : Reader φ α} {o : Option α} {b : UInt8}
    (h : Reads m (b :: t) rest o) (hm : ∀ p s, m' ⟨p, b :: s⟩ = m ⟨p, b :: s⟩) :
    Reads m' (b :: t) rest o := by
  cases o with
  | none => exact fun p out hout => h p out ((hm p _).symm.trans hout)
  | some x => exact fun p => (hm p _).trans (h p)

theorem Reads.map {o : Option α} (h : Reads m t rest o) (g : α → β) :
    Reads (do return g (← m)) t rest (o.map g) := by
  have hpure : ∀ x, o = some x → Reads (pure (g x) : Reader φ β) [] rest (some (g x)) :=
    fun x _ => takes_pure (g x) rest
  have hbind := Reads.bind h hpure
  rwa [List.append_nil, ← Function.comp_def some g, ← Option.map_eq_bind] at hbind

end Reads

/-! ### Steadiness -/

section SteadyAt

variable {m : Reader φ α} {f : α → Reader φ β} {t : Bytes}

theorem steadyAt_pure (x : α) (t : Bytes) : SteadyAt (pure x : Reader φ α) t := by
  intro p x' q t' h
  cases h
  exact ⟨[], rfl, fun rest _ => takes_pure x _⟩

theorem steadyAt_of_ne_ok (h : ∀ p out, m ⟨p, t⟩ ≠ .ok out) : SteadyAt m t :=
  fun p _ _ _ hm => absurd hm (h p _)

theorem SteadyAt.bind (hm : SteadyAt m t) (hf : ∀ x t', SteadyAt (f x) t') :
    SteadyAt (m >>= f) t := by
  intro p y q t'' h
  obtain ⟨x, ⟨q', t'⟩, hx, hy⟩ := bind_eq_ok.1 h
  obtain ⟨u, rfl, htakes⟩ := hm p x q' t' hx
  obtain ⟨u', rfl, htakes'⟩ := hf x t' q' y q t'' hy
  refine ⟨u ++ u', (List.append_assoc ..).symm, fun rest hrest => ?_⟩
  have hfirst := htakes rest hrest
  rw [List.append_assoc] at hfirst
  exact hfirst.bind (htakes' rest hrest)

section Bytes

variable {b : UInt8} {g : Option UInt8 → Reader φ β}

theorem SteadyAt.of_cons {m' : Reader φ α} (hm : SteadyAt m t)
    (h : ∀ p s, m' ⟨p, b :: s⟩ = m ⟨p.after b, s⟩) : SteadyAt m' (b :: t) := by
  intro p x q t' hx
  rw [h] at hx
  obtain ⟨u, rfl, htakes⟩ := hm _ x q t' hx
  refine ⟨b :: u, rfl, fun rest hrest p' => ?_⟩
  rw [List.cons_append, h]
  exact htakes rest hrest (p'.after b)

theorem SteadyAt.take_bind (h : SteadyAt (g (some b)) t) : SteadyAt (take >>= g) (b :: t) :=
  h.of_cons fun _ _ => rfl

theorem SteadyAt.drop_bind {f : Unit → Reader φ β} (h : SteadyAt (f ()) t) :
    SteadyAt (drop >>= f) (b :: t) :=
  h.of_cons fun _ _ => rfl

theorem SteadyAt.congr_cons {m' : Reader φ α} (hm : SteadyAt m (b :: t))
    (h : ∀ p s, m' ⟨p, b :: s⟩ = m ⟨p, b :: s⟩) : SteadyAt m' (b :: t) := by
  intro p x q t' hx
  rw [h] at hx
  obtain ⟨u, hu, htakes⟩ := hm p x q t' hx
  refine ⟨u, hu, fun rest hrest p' => ?_⟩
  have htaken := htakes rest hrest p'
  rw [← List.append_assoc, ← hu] at htaken ⊢
  rw [List.cons_append, h]
  exact htaken

theorem SteadyAt.peek_bind_cons (h : SteadyAt (g (some b)) (b :: t)) :
    SteadyAt (peek >>= g) (b :: t) :=
  h.congr_cons fun _ _ => rfl

/-- At its end, a text may be looked beyond if all that ends a number looks the same. -/
theorem SteadyAt.peek_bind_nil (h : SteadyAt (g none) [])
    (hend : ∀ b, goesOn b = false → g (some b) = g none) : SteadyAt (peek >>= g) [] := by
  intro p x q t' hx
  obtain ⟨u, hu, htakes⟩ := h p x q t' hx
  obtain ⟨rfl, rfl⟩ := List.append_eq_nil_iff.1 hu.symm
  refine ⟨[], rfl, fun rest hrest p' => ?_⟩
  have hsame := htakes rest hrest p'
  cases rest with
  | nil => exact hsame
  | cons b s =>
    rw [← hend b (hrest b s rfl)] at hsame
    exact hsame

end Bytes

/-- What the next byte is like may be asked, if the answer is no for all that ends a number. -/
theorem SteadyAt.test_bind {q : UInt8 → Bool} {f : Bool → Reader φ β}
    (hq : ∀ b, goesOn b = false → q b = false)
    (hyes : ∀ b s, t = b :: s → SteadyAt (f true) (b :: s)) (hno : SteadyAt (f false) t) :
    SteadyAt (peek >>= fun next => f (next.any q)) t := by
  cases t with
  | nil =>
    refine SteadyAt.peek_bind_nil hno fun b hb => ?_
    simp only [Option.any_some, Option.any_none, hq b hb]
  | cons b s =>
    refine SteadyAt.peek_bind_cons ?_
    rw [Option.any_some]
    cases q b with
    | false => exact hno
    | true => exact hyes b s rfl

end SteadyAt

end Reader

end IndexFeed.Json
