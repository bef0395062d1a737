import IndexFeed.Proofs.Json.RoundTrip
import IndexFeed.Proofs.Key.Buffers

/-!
# What a key keeps of a JSON value

The key of a JSON value is the text of the value in an array, if the value is emitted as it is. That
is so if and only if every integer outside objects is below `2 ^ 63` (`toJson_ofJson_iff`). Values
whose numbers are integers are read back from their keys in this case, and different ones have
different keys, and they are not read back in any other case (`keys_keep_signed`): a larger integer
is kept inside an object, but is emitted as a float elsewhere, and then different values may share
a key (`keys_collide`).
-/

namespace IndexFeed

open Text (Bytes)

namespace Json

/-- The value that a text of at most `depth` levels holds. -/
def parseWithin (depth : Nat) (bytes : Bytes) : Except (Failure Empty) Value :=
  readWhole (readValue depth) bytes

namespace Value

mutual

/-- Whether every integer outside objects is below `2 ^ 63`. -/
def isSigned : Value → Bool
  | .int n => n.val < 0x8000000000000000
  | .array items => itemsSigned items
  | _ => true

def itemsSigned : List Value → Bool
  | [] => true
  | v :: rest => v.isSigned && itemsSigned rest

end

theorem itemsSigned_eq (items : List Value) : itemsSigned items = items.all isSigned := by
  induction items with
  | nil => rfl
  | cons v items ih => rw [itemsSigned, ih, List.all_cons]

/-- A value as a parser leaves it, and whose numbers are all integers. -/
structure OfIntegers (v : Value) : Prop where
  canonical : v.canonical = v
  integers : v.floats = []

theorem OfIntegers.of_mem {items : List Value} (h : (Value.array items).OfIntegers) {v : Value}
    (hv : v ∈ items) : v.OfIntegers where
  canonical := by
    have hitems : items.map Value.canonical = items.map id := by
      rw [List.map_id, ← canonicalItems_eq]
      exact Value.array.inj h.canonical
    exact List.map_inj_left.1 hitems v hv
  integers := by
    have hfloats := h.integers
    rw [Value.floats, itemsFloats_eq, List.flatMap_eq_nil_iff] at hfloats
    exact hfloats v hv

end Value

/-- **The text of a value holds it**, but for floats, for a reader that opens enough levels. -/
theorem parseWithin_print {v : Value} {depth : Nat} (hheight : v.height ≤ depth)
    (hfloats : ∀ x ∈ v.floats, ReadsBack x) :
    parseWithin depth v.print = .ok v.reread.canonical :=
  readWhole_of_takes (takes_readRaw hheight hfloats ended_nil)

theorem canonical_rereadFloat_ne {x : Float} (h : ReadsBack x) (n : WireInt) :
    (rereadFloat x).canonical ≠ .int n := by
  unfold rereadFloat
  cases hfinite : x.isFinite with
  | true =>
    obtain ⟨y, hy⟩ := h hfinite
    rw [hy]
    exact nofun
  | false =>
    have htext : printFloat x = ascii "null".toList := if_neg (Bool.eq_false_iff.1 hfinite)
    have hread : parse (ascii "null".toList) = .ok .null := rfl
    rw [htext, hread]
    exact nofun

end Json

namespace Emitted

/-! ### Values as they are emitted -/

theorem toJson_ofInt_iff {n : Json.WireInt} :
    (ofInt n).toJson = .int n ↔ n.val < 0x8000000000000000 := by
  obtain ⟨n, lower, upper⟩ := n
  unfold ofInt
  split
  · next hlt =>
    have hback : (Int64.ofInt n).toInt = n :=
      Int64.toInt_ofInt_of_le (by simpa using lower) (by simpa using hlt)
    refine iff_of_true ?_ hlt
    simp only [toJson, Json.WireInt.ofInt64, hback]
  · next hge =>
    refine iff_of_false (fun h => ?_) hge
    cases h

theorem itemsToJson_eq (es : List Emitted) : itemsToJson es = es.map toJson := by
  induction es with
  | nil => rfl
  | cons e es ih => rw [itemsToJson, ih, List.map_cons]

theorem ofJsonItems_eq (items : List Json.Value) : ofJsonItems items = items.map ofJson := by
  induction items with
  | nil => rfl
  | cons v items ih => rw [ofJsonItems, ih, List.map_cons]

theorem toJson_ofJson_array (items : List Json.Value) :
    (ofJson (.array items)).toJson = .array (items.map fun v => (ofJson v).toJson) := by
  rw [ofJson, toJson, ofJsonItems_eq, itemsToJson_eq, List.map_map]
  rfl

theorem map_eq_self_iff {f : Json.Value → Json.Value} {items : List Json.Value} :
    items.map f = items ↔ ∀ v ∈ items, f v = v := by
  simpa using List.map_inj_left (l := items) (f := f) (g := id)

/-- **A value is emitted as it is** if and only if every integer outside objects has room for a
sign. -/
theorem toJson_ofJson_iff {v : Json.Value} : (ofJson v).toJson = v ↔ v.isSigned = true := by
  induction v using Json.Value.induction_on with
  | scalar v hv => cases v with
    | int n => exact toJson_ofInt_iff.trans decide_eq_true_iff.symm
    | array items => cases hv
    | object ms => cases hv
    | _ => exact iff_of_true rfl rfl
  | array items ih =>
    rw [toJson_ofJson_array, Json.Value.array.injEq, map_eq_self_iff, Json.Value.isSigned,
      Json.Value.itemsSigned_eq, List.all_eq_true]
    exact forall₂_congr ih
  | object ms ih => exact iff_of_true rfl rfl

/-- **A value is read back as it is emitted** if and only if every integer outside objects has room
for a sign, where the floats that it is emitted with are read as floats. -/
theorem canonical_reread_toJson_iff {v : Json.Value} (h : v.OfIntegers)
    (hfloats : ∀ x ∈ (ofJson v).toJson.floats, Json.ReadsBack x) :
    (ofJson v).toJson.reread.canonical = v ↔ v.isSigned = true := by
  induction v using Json.Value.induction_on with
  | scalar v hv => cases v with
    | int n =>
      -- an integer beyond the signed ones is written as a float, and read back as one
      by_cases hn : n.val < 0x8000000000000000
      · rw [ofJson, toJson_ofInt_iff.2 hn]
        exact iff_of_true rfl (decide_eq_true hn)
      · have hfloat : (ofJson (.int n)).toJson = .float (Float.ofInt n.val) := by
          rw [ofJson, ofInt, if_neg hn, toJson]
        rw [hfloat] at hfloats ⊢
        have hback := hfloats _ (List.mem_singleton_self _)
        exact iff_of_false (Json.canonical_rereadFloat_ne hback n) (mt of_decide_eq_true hn)
    | float x => cases h.integers
    | array items => cases hv
    | object ms => cases hv
    | _ => exact iff_of_true rfl rfl
  | array items ih =>
    have hitems : ∀ v ∈ items,
        ((ofJson v).toJson.reread.canonical = v ↔ v.isSigned = true) := by
      intro v hv
      refine ih v hv (h.of_mem hv) fun x hx => hfloats x ?_
      rw [toJson_ofJson_array, Json.Value.floats, Json.Value.itemsFloats_eq]
      exact List.mem_flatMap.2 ⟨_, List.mem_map_of_mem hv, hx⟩
    rw [toJson_ofJson_array, Json.Value.reread, Json.Value.rereadItems_eq, Json.Value.canonical,
      Json.Value.canonicalItems_eq, List.map_map, List.map_map, Json.Value.array.injEq,
      map_eq_self_iff, Json.Value.isSigned, Json.Value.itemsSigned_eq, List.all_eq_true]
    exact forall₂_congr hitems
  | object ms ih =>
    refine iff_of_true ?_ rfl
    rw [ofJson, toJson, Json.Value.reread_of_floats_eq_nil h.integers, h.canonical]

/-- A value is emitted with no more levels than it has. -/
theorem height_toJson_ofJson_le (v : Json.Value) : (ofJson v).toJson.height ≤ v.height := by
  induction v using Json.Value.induction_on with
  | scalar v hv => cases v with
    | int n =>
      rw [ofJson, ofInt]
      split <;> exact Nat.le_refl 0
    | array items => cases hv
    | object ms => cases hv
    | _ => exact Nat.le_refl 0
  | array items ih =>
    rw [toJson_ofJson_array, Json.Value.height, Json.Value.height]
    refine Nat.succ_le_succ (Json.Value.itemsHeight_le.2 fun w hw => ?_)
    obtain ⟨v, hv, rfl⟩ := List.mem_map.1 hw
    exact (ih v hv).trans (Json.Value.itemsHeight_le.1 (Nat.le_refl _) v hv)
  | object ms ih => exact Nat.le_refl _

/-! ### Keys -/

theorem encodeWith_ofJson (v : Json.Value) (buffer : Option Buffer) :
    EmittedTuple.encodeWith buffer [ofJson v] =
      some (Json.Value.array [(ofJson v).toJson]).print :=
  EmittedTuple.encodeWith_eq ..

theorem parseWithin_key {v : Json.Value} {depth : Nat} (hdepth : v.height < depth)
    (hfloats : ∀ x ∈ (ofJson v).toJson.floats, Json.ReadsBack x) :
    Json.parseWithin depth (Json.Value.array [(ofJson v).toJson]).print =
      .ok (.array [(ofJson v).toJson.reread.canonical]) := by
  have hheight : (Json.Value.array [(ofJson v).toJson]).height ≤ depth := by
    have hle := height_toJson_ofJson_le v
    simp only [Json.Value.height, Json.Value.itemsHeight]
    omega
  have hitem : ∀ x ∈ (Json.Value.array [(ofJson v).toJson]).floats, Json.ReadsBack x := by
    simpa [Json.Value.floats, Json.Value.itemsFloats] using hfloats
  exact Json.parseWithin_print hheight hitem

theorem parseWithin_key_of_isSigned {v : Json.Value} (h : v.OfIntegers)
    (hsigned : v.isSigned = true) {depth : Nat} (hdepth : v.height < depth) :
    Json.parseWithin depth (Json.Value.array [v]).print = .ok (.array [v]) := by
  have hsame := toJson_ofJson_iff.2 hsigned
  have hfloats : ∀ x ∈ (ofJson v).toJson.floats, Json.ReadsBack x := by
    rw [hsame, h.integers]
    exact nofun
  have hread := parseWithin_key hdepth hfloats
  rwa [(canonical_reread_toJson_iff h hfloats).2 hsigned, hsame] at hread

/-- **What keys keep.** Take a JSON value whose numbers are all integers. It has a key, the same
with any buffer. If every integer outside objects is below `2 ^ 63`, the key is the text of the
array of the value, with the digits of each number wherever it stands; a reader that opens enough
levels gets the array back; and no other such value has the key. If not, no such reader gets the
array back, given that floats are read as floats. -/
theorem keys_keep_signed (v : Json.Value) (h : v.OfIntegers) (buffer : Option Buffer) :
    ∃ key, EmittedTuple.encodeWith buffer [ofJson v] = some key ∧
      (v.isSigned = true →
        key = (Json.Value.array [v]).print ∧
        (∀ depth, v.height < depth → Json.parseWithin depth key = .ok (.array [v])) ∧
        ∀ v' : Json.Value, v'.OfIntegers → v'.isSigned = true → ∀ buffer',
          EmittedTuple.encodeWith buffer' [ofJson v'] = some key → v' = v) ∧
      (v.isSigned = false → (∀ x ∈ (ofJson v).toJson.floats, Json.ReadsBack x) →
        ∀ depth, v.height < depth → Json.parseWithin depth key ≠ .ok (.array [v])) := by
  refine ⟨_, encodeWith_ofJson v buffer, fun hsigned => ?_, fun hnot hfloats depth hdepth heq => ?_⟩
  · rw [toJson_ofJson_iff.2 hsigned]
    refine ⟨rfl, fun depth => parseWithin_key_of_isSigned h hsigned,
      fun v' h' hsigned' buffer' heq => ?_⟩
    rw [encodeWith_ofJson, toJson_ofJson_iff.2 hsigned'] at heq
    -- one reader that opens enough levels for both
    let depth := max v.height v'.height + 1
    have hread : Json.parseWithin depth (Json.Value.array [v]).print = .ok (.array [v]) :=
      parseWithin_key_of_isSigned h hsigned (by omega)
    have hread' : Json.parseWithin depth (Json.Value.array [v']).print = .ok (.array [v']) :=
      parseWithin_key_of_isSigned h' hsigned' (by omega)
    rw [Option.some.inj heq, hread] at hread'
    cases hread'
    rfl
  · rw [parseWithin_key hdepth hfloats] at heq
    have hback : (ofJson v).toJson.reread.canonical = v := by
      simpa using heq
    rw [(canonical_reread_toJson_iff h hfloats).1 hback] at hnot
    cases hnot

/-- The largest integer that a document holds exactly. -/
def largest : Json.WireInt := .ofNat 0xFFFFFFFFFFFFFFFF (by decide)

theorem keys_keep_signed_nested :
    let kept : Json.Value := .array [.int (.ofInt64 (-5)), .object [("a", .int largest)]]
    let lost : Json.Value := .array [.int largest]
    kept.OfIntegers ∧ kept.isSigned = true ∧ lost.OfIntegers ∧ lost.isSigned = false ∧
      (∃ key, EmittedTuple.encodeWith none [ofJson kept] = some key ∧
        Json.parseWithin 3 key = .ok (.array [kept])) ∧
      ∃ key, EmittedTuple.encodeWith none [ofJson lost] = some key ∧
        Json.parseWithin 2 key ≠ .ok (.array [lost]) := by
  intro kept lost
  have hkept : kept.OfIntegers := ⟨rfl, rfl⟩
  have hlost : lost.OfIntegers := ⟨rfl, rfl⟩
  have hfloats : ∀ x ∈ (ofJson lost).toJson.floats, Json.ReadsBack x := by
    decide +kernel
  obtain ⟨key, hkey, hread, -⟩ := keys_keep_signed kept hkept none
  obtain ⟨key', hkey', -, hunread⟩ := keys_keep_signed lost hlost none
  exact ⟨hkept, by decide, hlost, by decide,
    ⟨key, hkey, (hread (by decide)).2.1 3 (by decide)⟩,
    key', hkey', hunread (by decide) hfloats 2 (by decide)⟩

/-- **Large integers collide.** Two integers that a document holds exactly, and that differ, have
one key outside objects, and neither is read back from it. -/
theorem keys_collide :
    let n := largest
    let n' : Json.WireInt := .ofNat 0xFFFFFFFFFFFFFFFE (by decide)
    let key := Json.ascii "[1.8446744073709552e+19]".toList
    n ≠ n' ∧ EmittedTuple.encode [ofJson (.int n)] = some key ∧
      EmittedTuple.encode [ofJson (.int n')] = some key ∧
      Json.parse key ≠ .ok (.array [.int n]) ∧ Json.parse key ≠ .ok (.array [.int n']) := by
  intro n n' key
  have hkeys : (EmittedTuple.encode [ofJson (.int n)], EmittedTuple.encode [ofJson (.int n')]) =
      (some key, some key) := by
    decide +kernel
  have hfloat : ((Json.parse key).toOption.any fun v => !v.floats.isEmpty) = true := by
    decide +kernel
  have hnone : ∀ m : Json.WireInt, Json.parse key ≠ .ok (.array [.int m]) := by
    intro m hm
    rw [hm] at hfloat
    cases hfloat
  obtain ⟨hkey, hkey'⟩ := Prod.mk.inj hkeys
  exact ⟨by decide, hkey, hkey', hnone n, hnone n'⟩

end Emitted

end IndexFeed
