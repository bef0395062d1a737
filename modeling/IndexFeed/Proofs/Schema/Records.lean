import IndexFeed.Proofs.Json.Reading
import IndexFeed.Schema.FromText

/-!
# Records that were read

However a record is written, by name or in order, each of its fields has been read by the form of
the field, one level further in, unless its default stands for it (`held_of_read_record`).
-/

namespace IndexFeed.Schema

open Json (Reader Input)

/-- A value that the reader of a form gives somewhere. -/
def Form.Reads {α : Type} (form : Form α) (depth : Nat) (v : α) : Prop :=
  ∃ i j, form.read depth i = .ok (v, j)

namespace Fields

variable {depth : Nat}

/-- Each value in the places of the fields was read by the form of its field. -/
def HeldSlots (depth : Nat) : {ts : List Type} → Fields ts → Slots ts → Prop
  | _, .nil, _ => True
  | _, .cons _ form _ rest, (slot, slots) =>
    (∀ v, slot = some v → form.Reads depth v) ∧ rest.HeldSlots depth slots

/-- Each value of the fields was read by the form of its field, or stands for a missing one. -/
def Held (depth : Nat) : {ts : List Type} → Fields ts → Tuple ts → Prop
  | _, .nil, _ => True
  | _, .cons _ form default? rest, (v, vs) =>
    (form.Reads depth v ∨ default? = some v) ∧ rest.Held depth vs

theorem heldSlots_empty {ts : List Type} (fields : Fields ts) :
    fields.HeldSlots depth (Slots.empty ts) := by
  induction ts with
  | nil => cases fields; trivial
  | cons t ts ih => cases fields with
    | cons name form default? rest => exact ⟨nofun, ih rest⟩

end Fields

theorem foldMembers_keeps {φ α : Type} {P : α → Prop} {member : α → String → Reader φ α}
    (hmember : ∀ acc name i x j, P acc → member acc name i = .ok (x, j) → P x) {fuel : Text.Bytes}
    {first : Bool} {acc x : α} {i j : Input} (hacc : P acc)
    (h : Json.foldMembers member fuel first acc i = .ok (x, j)) : P x := by
  induction fuel generalizing first acc i with
  | nil =>
    cases h
    exact hacc
  | cons _ fuel ih =>
    rw [Json.foldMembers] at h
    obtain ⟨goOn, i₁, -, h⟩ := Reader.bind_eq_ok.1 h
    cases goOn with
    | false =>
      cases h
      exact hacc
    | true =>
      obtain ⟨name, i₂, -, h⟩ := Reader.bind_eq_ok.1 h
      obtain ⟨acc', i₃, hmem, h⟩ := Reader.bind_eq_ok.1 h
      exact ih (hmember _ _ _ _ _ hacc hmem) h

/-! ### Fields -/

namespace Fields

variable {depth : Nat} {ts : List Type}

section ReadMember

variable {t : Type} {field name : String} {form : Form t} {default? : Option t} {rest : Fields ts}
  {slots : Slots ts}

theorem readMember_vacant (h : field = name) :
    (Fields.cons field form default? rest).readMember depth name (none, slots) =
      (do
        Json.readColon
        return (some (← form.read depth), slots) : Typed (Slots (t :: ts))) := by
  rw [readMember]
  exact if_pos h

theorem readMember_taken (h : field = name) (v : t) :
    (Fields.cons field form default? rest).readMember depth name (some v, slots) =
      Reader.refuseUnplaced (.duplicateField name) := by
  rw [readMember]
  exact if_pos h

theorem readMember_other (h : field ≠ name) (slot : Option t) :
    (Fields.cons field form default? rest).readMember depth name (slot, slots) =
      (do return (slot, ← rest.readMember depth name slots) : Typed (Slots (t :: ts))) := by
  cases slot with
  | none =>
    rw [readMember]
    exact if_neg h
  | some v =>
    rw [readMember]
    exact if_neg h

end ReadMember

theorem heldSlots_readMember {name : String} {fields : Fields ts} {slots slots' : Slots ts}
    {i j : Input} (hslots : fields.HeldSlots depth slots)
    (h : fields.readMember depth name slots i = .ok (slots', j)) :
    fields.HeldSlots depth slots' := by
  induction ts generalizing i j with
  | nil => cases fields; trivial
  | cons t ts ih => cases fields with
    | cons field form default? rest =>
      obtain ⟨slot, slots⟩ := slots
      obtain ⟨hslot, hrest⟩ := hslots
      by_cases hfield : field = name
      · cases slot with
        | some v =>
          rw [readMember_taken hfield] at h
          cases h
        | none =>
          rw [readMember_vacant hfield] at h
          obtain ⟨_, i₁, -, h⟩ := Reader.bind_eq_ok.1 h
          obtain ⟨v, i₂, hread, h⟩ := Reader.bind_eq_ok.1 h
          cases h
          refine ⟨fun w hw => ?_, hrest⟩
          cases hw
          exact ⟨i₁, _, hread⟩
      · rw [readMember_other hfield] at h
        obtain ⟨slots'', i₁, hmember, h⟩ := Reader.bind_eq_ok.1 h
        cases h
        exact ⟨hslot, ih hrest hmember⟩

theorem held_complete {fields : Fields ts} {slots : Slots ts} {vs : Tuple ts}
    (hslots : fields.HeldSlots depth slots) (h : fields.complete slots = .ok vs) :
    fields.Held depth vs := by
  induction ts with
  | nil => cases fields; trivial
  | cons t ts ih => cases fields with
    | cons field form default? rest =>
      obtain ⟨slot, slots⟩ := slots
      obtain ⟨hslot, hrest⟩ := hslots
      rw [complete] at h
      split at h
      · next v hv =>
        cases hvs : rest.complete slots with
        | error name =>
          rw [hvs] at h
          cases h
        | ok vs' =>
          rw [hvs] at h
          cases h
          refine ⟨?_, ih hrest hvs⟩
          cases slot with
          | none => exact .inr hv
          | some w =>
            cases hv
            exact .inl (hslot v rfl)
      · cases h

theorem held_readItems {first : Bool} {expected : String} {index : Nat} {fields : Fields ts}
    {vs : Tuple ts} {i j : Input}
    (h : fields.readItems depth first expected index i = .ok (vs, j)) : fields.Held depth vs := by
  induction ts generalizing first index i j with
  | nil => cases fields; trivial
  | cons t ts ih => cases fields with
    | cons field form default? rest =>
      rw [readItems] at h
      obtain ⟨goOn, i₁, -, h⟩ := Reader.bind_eq_ok.1 h
      have hnext : ∀ v i, (do return (v, ← rest.readItems depth false expected (index + 1)) :
          Typed (Tuple (t :: ts))) i = .ok (vs, j) → form.Reads depth v ∨ default? = some v →
            (Fields.cons field form default? rest).Held depth vs := by
        intro v i h hv
        obtain ⟨vs', i₂, hitems, h⟩ := Reader.bind_eq_ok.1 h
        cases h
        exact ⟨hv, ih hitems⟩
      cases goOn with
      | true =>
        obtain ⟨v, i₂, hread, h⟩ := Reader.bind_eq_ok.1 h
        exact hnext v i₂ h (.inl ⟨i₁, i₂, hread⟩)
      | false => cases default? with
        | none => cases h
        | some v => exact hnext v i₁ h (.inr rfl)

end Fields

/-! ### Records -/

theorem descend_eq_ok {φ α : Type} {depth : Nat} {body : Nat → Reader φ α} {i j : Input} {x : α}
    (h : Json.descend depth body i = .ok (x, j)) :
    ∃ d k, depth = d + 1 ∧ body d k = .ok (x, j) := by
  cases depth with
  | zero => cases h
  | succ d =>
    obtain ⟨_, k, -, h⟩ := Reader.bind_eq_ok.1 h
    exact ⟨d, k, rfl, h⟩

theorem enclosed_eq_ok {α : Type} {body : Typed α} {close : Typed Unit} {leave : Input → Input}
    {i j : Input} {x : α} (h : enclosed body close leave i = .ok (x, j)) :
    ∃ k, body i = .ok (x, k) := by
  unfold enclosed at h
  split at h
  · next y k hbody =>
    split at h
    · cases h
      exact ⟨k, hbody⟩
    · cases h
  · cases h
  · cases h

theorem refuse_ne_ok {α : Type} (what : Fault) (i : Input) (out : α × Input) :
    (Reader.refuse what : Typed α) i ≠ .ok out := nofun

/-- A value of another kind is read, if at all, to be refused. -/
theorem refuseType_ne_ok {α : Type} (expected : String) (b : UInt8) (i : Input)
    (out : α × Input) : refuseType expected b i ≠ .ok out := by
  have hword : ∀ {m : Typed Unit} {what}, ∀ i (out : α × Input),
      (do Reader.drop; m; Reader.refuse what : Typed α) i ≠ .ok out := fun {m what} =>
    Reader.bind_ne_ok fun _ => Reader.bind_ne_ok fun _ => refuse_ne_ok what
  unfold refuseType
  split
  · exact hword i out
  split
  · exact hword i out
  split
  · exact hword i out
  split
  · exact Reader.bind_ne_ok (fun d => refuse_ne_ok _) i out
  split
  · exact Reader.bind_ne_ok (fun _ => Reader.bind_ne_ok fun s => refuse_ne_ok _) i out
  split
  · exact refuse_ne_ok _ i out
  split
  · exact refuse_ne_ok _ i out
  · nofun

/-- **The fields of a record** have been read one level further in. -/
theorem held_of_read_record {ts : List Type} {α : Type} {name : String} {fields : Fields ts}
    {make : Tuple ts → α} {depth : Nat} {x : α}
    (h : (Form.record name fields make).Reads depth x) :
    ∃ d vs, depth = d + 1 ∧ x = make vs ∧ fields.Held d vs := by
  obtain ⟨i, j, h⟩ := h
  rw [Form.read] at h
  obtain ⟨b, i₁, -, h⟩ := Reader.bind_eq_ok.1 h
  -- as an array, a record holds its fields by place
  split at h
  · obtain ⟨d, i₂, rfl, h⟩ := descend_eq_ok h
    obtain ⟨i₃, h⟩ := enclosed_eq_ok h
    obtain ⟨vs, i₄, hitems, h⟩ := Reader.bind_eq_ok.1 h
    cases h
    exact ⟨d, vs, rfl, rfl, Fields.held_readItems hitems⟩
  -- as an object, it holds them by name, and the slots are filled in the order of the members
  split at h
  · obtain ⟨d, i₂, rfl, h⟩ := descend_eq_ok h
    obtain ⟨i₃, h⟩ := enclosed_eq_ok h
    obtain ⟨fuel, i₄, -, h⟩ := Reader.bind_eq_ok.1 h
    obtain ⟨slots, i₅, hmembers, h⟩ := Reader.bind_eq_ok.1 h
    obtain ⟨vs, i₆, hcomplete, h⟩ := Reader.bind_eq_ok.1 h
    cases h
    have hslots : fields.HeldSlots d slots :=
      foldMembers_keeps (fun _ _ _ _ _ => Fields.heldSlots_readMember)
        (Fields.heldSlots_empty fields) hmembers
    unfold completedTyped at hcomplete
    cases hvs : fields.complete slots with
    | error name =>
      rw [hvs] at hcomplete
      cases hcomplete
    | ok vs' =>
      rw [hvs] at hcomplete
      cases hcomplete
      exact ⟨d, vs, rfl, rfl, Fields.held_complete hslots hvs⟩
  · exact absurd h (refuseType_ne_ok _ b i₁ _)

end IndexFeed.Schema
