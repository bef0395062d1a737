import IndexFeed.Proofs.Json.Brackets
import IndexFeed.Proofs.Json.Canonical

/-!
# Printed values

A value that is printed is read back (`takes_readRaw`), but for its floats, which are what their
texts are read as (`Value.reread`), and as long as the levels suffice. So the text of a value holds
its canonical form (`parse_print`).
-/

namespace IndexFeed.Json

open Text (Bytes)

namespace Value

mutual

/-- The floats in a value. -/
def floats : Value → List Float
  | .float x => [x]
  | .array items => itemsFloats items
  | .object members => membersFloats members
  | _ => []

def itemsFloats : List Value → List Float
  | [] => []
  | v :: rest => v.floats ++ itemsFloats rest

def membersFloats : Members → List Float
  | [] => []
  | (_, v) :: rest => v.floats ++ membersFloats rest

end

mutual

/-- The value with each float as its text is read. -/
def reread : Value → Value
  | .float x => rereadFloat x
  | .array items => .array (rereadItems items)
  | .object members => .object (rereadMembers members)
  | v => v

def rereadItems : List Value → List Value
  | [] => []
  | v :: rest => v.reread :: rereadItems rest

def rereadMembers : Members → Members
  | [] => []
  | (name, v) :: rest => (name, v.reread) :: rereadMembers rest

end

theorem itemsFloats_eq (items : List Value) : itemsFloats items = items.flatMap floats := by
  induction items with
  | nil => rfl
  | cons v items ih => rw [itemsFloats, ih, List.flatMap_cons]

theorem membersFloats_eq (ms : Members) : membersFloats ms = ms.flatMap fun m => m.2.floats := by
  induction ms with
  | nil => rfl
  | cons m ms ih => rw [membersFloats, ih, List.flatMap_cons]

theorem rereadItems_eq (items : List Value) : rereadItems items = items.map reread := by
  induction items with
  | nil => rfl
  | cons v items ih => rw [rereadItems, ih, List.map_cons]

theorem rereadMembers_eq (ms : Members) :
    rereadMembers ms = ms.map fun m => (m.1, m.2.reread) := by
  induction ms with
  | nil => rfl
  | cons m ms ih => rw [rereadMembers, ih, List.map_cons]

theorem printItems_eq (items : List Value) : printItems items = items.map print := by
  induction items with
  | nil => rfl
  | cons v items ih => rw [printItems, ih, List.map_cons]

theorem printMembers_eq (ms : Members) :
    printMembers ms = ms.map fun m => printMember m.1 m.2.print := by
  induction ms with
  | nil => rfl
  | cons m ms ih => rw [printMembers, ih, List.map_cons]

theorem reread_of_floats_eq_nil {v : Value} (h : v.floats = []) : v.reread = v := by
  induction v using induction_on with
  | scalar v hv => cases v <;> first | rfl | cases h | cases hv
  | array items ih =>
    rw [floats, itemsFloats_eq, List.flatMap_eq_nil_iff] at h
    have hitems : ∀ v ∈ items, v.reread = id v := fun v hv => ih v hv (h v hv)
    rw [reread, rereadItems_eq, List.map_congr_left hitems, List.map_id]
  | object ms ih =>
    rw [floats, membersFloats_eq, List.flatMap_eq_nil_iff] at h
    have hmembers : ∀ m ∈ ms, (m.1, m.2.reread) = id m :=
      fun m hm => congrArg (Prod.mk m.1) (ih m hm (h m hm))
    rw [reread, rereadMembers_eq, List.map_congr_left hmembers, List.map_id]

end Value

/-! ### Values -/

theorem takes_readName {φ : Type} (name : String) (rest : Bytes) :
    Reader.Takes (readName : Reader φ String) (printText name) rest name :=
  fun p => takes_readString name rest (p.after 0x22)

section Values

variable {rest : Bytes} {depth : Nat}

theorem takes_scalar {brackets : Bool → Reader Empty Value} {v : Value} (hv : v.height = 0)
    (hfloats : ∀ x ∈ v.floats, ReadsBack x) (hrest : Ended rest) :
    Reader.Takes (readScalarOr brackets) v.print rest v.reread := by
  cases v with
  | null => exact takes_null rest
  | bool b => exact takes_bool b rest
  | int n => exact takes_int hrest n
  | float x => exact takes_float hrest (hfloats x (List.mem_singleton_self x))
  | text s => exact takes_text s rest
  | array items => cases hv
  | object ms => cases hv

theorem takes_array {items : List Value} (h : ∀ v ∈ items, ∀ rest, Ended rest →
    Reader.Takes (readRaw depth : Reader Empty Value) v.print rest v.reread) :
    Reader.Takes (readRaw (depth + 1) : Reader Empty Value) (Value.array items).print rest
      (Value.array items).reread := by
  have hitems : List.Forall₂ (Padded fun t v =>
      Comes Opens (readRaw depth : Reader Empty Value) t (pure (Value.reread v)))
      (items.map Value.print) items :=
    List.forall₂_map_left_iff.2 (List.forall₂_same.2 fun v hv => .bare ⟨opens_print v, h v hv⟩)
  have hread := reads_array (reads_each separates_nextItem rfl hitems
    (length_lt_fuel_commas _ 0x5D rest))
  rw [List.mapM_pure] at hread
  rw [Value.print, Value.printItems_eq, Value.reread, Value.rereadItems_eq]
  exact hread

theorem takes_object {ms : Members} (h : ∀ m ∈ ms, ∀ rest, Ended rest →
    Reader.Takes (readRaw depth : Reader Empty Value) m.2.print rest m.2.reread) :
    Reader.Takes (readRaw (depth + 1) : Reader Empty Value) (Value.object ms).print rest
      (Value.object ms).reread := by
  have hmembers : List.Forall₂ (Padded fun t (m : String × Value) =>
      Comes OpensQuote (readMember (readRaw depth) : Reader Empty (String × Value)) t
        (pure (m.1, m.2.reread)))
      (ms.map fun m => printMember m.1 m.2.print) ms :=
    List.forall₂_map_left_iff.2 (List.forall₂_same.2 fun m hm => .bare
      (comes_member (w := []) (o := some m.2.reread) ⟨_, rfl⟩ (takes_readName m.1) nofun (h m hm)))
  have hread := reads_object (reads_each separates_nextMember rfl hmembers
    (length_lt_fuel_commas _ 0x7D rest))
  rw [List.mapM_pure] at hread
  rw [Value.print, Value.printMembers_eq, Value.reread, Value.rereadMembers_eq]
  exact hread

/-- **A printed value is read back**, if it has no more levels than may be opened. -/
theorem takes_readRaw {v : Value} (hheight : v.height ≤ depth)
    (hfloats : ∀ x ∈ v.floats, ReadsBack x) (hrest : Ended rest) :
    Reader.Takes (readRaw depth : Reader Empty Value) v.print rest v.reread := by
  induction depth generalizing v rest with
  | zero => exact takes_scalar (Nat.le_zero.1 hheight) hfloats hrest
  | succ depth ih => cases v with
    | array items =>
      refine takes_array fun v hv rest hrest => ih ?_ (fun x hx => hfloats x ?_) hrest
      · exact Value.itemsHeight_le.1 (Nat.le_of_succ_le_succ hheight) v hv
      · rw [Value.floats, Value.itemsFloats_eq]
        exact List.mem_flatMap_of_mem hv hx
    | object ms =>
      refine takes_object fun m hm rest hrest => ih ?_ (fun x hx => hfloats x ?_) hrest
      · exact Value.membersHeight_le.1 (Nat.le_of_succ_le_succ hheight) m hm
      · rw [Value.floats, Value.membersFloats_eq]
        exact List.mem_flatMap_of_mem hm hx
    | _ => exact takes_scalar rfl hfloats hrest

end Values

/-- **The text of a value holds its canonical form**, but for floats. -/
theorem parse_print {v : Value} (hheight : v.height ≤ levels)
    (hfloats : ∀ x ∈ v.floats, ReadsBack x) : parse v.print = .ok v.reread.canonical :=
  parse_of_takes (takes_readRaw hheight hfloats ended_nil)

end IndexFeed.Json
