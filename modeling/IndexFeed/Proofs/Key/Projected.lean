import IndexFeed.Key.Projection
import IndexFeed.Proofs.Json.RoundTrip
import IndexFeed.Proofs.Key.Buffers
import Mathlib.Data.List.Count

/-!
# Fields as they are emitted

A projection takes each field out of the document when it emits it, so that a field that is listed
again is not there any more. What it emits at a place is the value of the field listed there, unless
the field was listed before (`getElem?_takeFields`). So it emits the value of every field in order
if and only if it lists no field twice that holds something (`takeFields_eq_map_iff`), and loses
values otherwise (`repeated_field_undefined`).
-/

namespace IndexFeed

open Text (Bytes)

theorem Json.Members.find?_erase (ms : Json.Members) (f g : String) :
    (ms.erase f).find? g = if g = f then none else ms.find? g := by
  induction ms with
  | nil => simp [erase, find?]
  | cons m ms ih =>
    have herase : erase (m :: ms) f = if m.1 = f then erase ms f else m :: erase ms f := by
      by_cases hm : m.1 = f <;> simp [erase, hm]
    rw [herase, Value.find?_cons]
    by_cases hm : m.1 = f
    · rw [if_pos hm, ih, hm]
      split <;> rfl
    · rw [if_neg hm, Value.find?_cons, ih]
      by_cases hg : g = m.1
      · rw [if_pos hg, if_pos hg, if_neg (fun hf => hm (hg.symm.trans hf))]
      · rw [if_neg hg, if_neg hg]

theorem Emitted.ofJson_eq_undefined {v : Json.Value} : ofJson v = .undefined ↔ v = .null := by
  cases v with
  | null => exact iff_of_true rfl rfl
  | int n =>
    refine iff_of_false (fun h => ?_) nofun
    rw [ofJson, ofInt] at h
    split at h <;> cases h
  | _ => exact iff_of_false nofun nofun

/-! ### Repeated elements -/

/-- An element comes twice if and only if it stands somewhere behind itself. -/
theorem two_le_count_iff {α : Type} [DecidableEq α] {l : List α} {a : α} :
    2 ≤ l.count a ↔ ∃ i : Nat, l[i]? = some a ∧ a ∈ l.take i := by
  induction l with
  | nil => simp
  | cons b l ih =>
    constructor
    · intro h
      by_cases hb : b = a
      · subst hb
        have hmem : b ∈ l := by
          rw [List.count_cons_self] at h
          exact List.count_pos_iff.1 (by omega)
        obtain ⟨i, hi⟩ := List.mem_iff_getElem?.1 hmem
        exact ⟨i + 1, hi, List.mem_cons_self⟩
      · rw [List.count_cons_of_ne hb] at h
        obtain ⟨i, hi, hbefore⟩ := ih.1 h
        exact ⟨i + 1, hi, List.mem_cons_of_mem b hbefore⟩
    · rintro ⟨_ | i, hi, hbefore⟩
      · cases hbefore
      · rw [List.getElem?_cons_succ] at hi
        rcases List.mem_cons.1 hbefore with rfl | hbefore
        · have hpos : 0 < l.count a := List.count_pos_iff.2 (List.mem_of_getElem? hi)
          rw [List.count_cons_self]
          omega
        · have htwo := ih.2 ⟨i, hi, hbefore⟩
          exact htwo.trans List.count_le_count_cons

namespace Projection

/-- What a document emits for a field: its value, or undefined if it does not have the field. -/
def emittedFor (doc : Json.Members) (f : String) : Emitted :=
  ((doc.find? f).map Emitted.ofJson).getD .undefined

theorem emittedFor_eq_undefined {doc : Json.Members} {f : String} :
    emittedFor doc f = .undefined ↔ ∀ v, doc.find? f = some v → v = .null := by
  rw [emittedFor]
  cases doc.find? f with
  | none => exact iff_of_true rfl nofun
  | some v => simpa using Emitted.ofJson_eq_undefined

theorem emittedFor_erase (doc : Json.Members) (f g : String) :
    emittedFor (doc.erase f) g = if g = f then .undefined else emittedFor doc g := by
  rw [emittedFor, Json.Members.find?_erase]
  split <;> rfl

/-! ### The tuple of a document -/

theorem length_takeFields (fields : List String) (doc : Json.Members) :
    (takeFields fields doc).length = fields.length := by
  induction fields generalizing doc with
  | nil => rfl
  | cons f fields ih => rw [takeFields, List.length_cons, ih, List.length_cons]

/-- **What is emitted at a place** is the value of the field listed there, unless it was listed
before. -/
theorem getElem?_takeFields (fields : List String) (doc : Json.Members) (i : Nat) :
    (takeFields fields doc)[i]? = fields[i]?.map fun f =>
      if f ∈ fields.take i then .undefined else emittedFor doc f := by
  induction fields generalizing doc i with
  | nil => rfl
  | cons g fields ih => cases i with
    | zero => rfl
    | succ i =>
      rw [takeFields, List.getElem?_cons_succ, List.getElem?_cons_succ, ih, List.take_succ_cons]
      refine congrArg (fun h => Option.map h fields[i]?) (funext fun f => ?_)
      -- the document of the fields behind `g` is without `g`
      rw [emittedFor_erase]
      by_cases hg : f = g <;> simp [hg]

/-- **The value of every field is emitted** if and only if no field that holds something is listed
twice. -/
theorem takeFields_eq_map_iff {fields : List String} {doc : Json.Members} :
    takeFields fields doc = fields.map (emittedFor doc) ↔
      ∀ f v, 2 ≤ fields.count f → doc.find? f = some v → v = .null := by
  constructor
  · intro h f v hf
    obtain ⟨i, hi, hbefore⟩ := two_le_count_iff.1 hf
    have hsame := congrArg (fun tuple : EmittedTuple => tuple[i]?) h
    simp only [getElem?_takeFields, List.getElem?_map, hi, Option.map_some, if_pos hbefore,
      Option.some.injEq] at hsame
    exact emittedFor_eq_undefined.1 hsame.symm v
  · intro h
    refine List.ext_getElem? fun i => ?_
    rw [getElem?_takeFields, List.getElem?_map]
    cases hi : fields[i]? with
    | none => rfl
    | some f =>
      rw [Option.map_some, Option.map_some]
      split
      · next hbefore =>
        have htwo := two_le_count_iff.2 ⟨i, hi, hbefore⟩
        rw [emittedFor_eq_undefined.2 fun v => h f v htwo]
      · rfl

/-! ### The key of a document -/

section Document

variable (p : Projection) {r : Request} {doc : Json.Members}
  (hbody : Json.parse r.body = .ok (.object doc)) (buffer : Option Buffer)

include hbody

theorem verdict_of_object :
    p.evaluator.verdict r buffer = .answered (p.tuple (.object doc)).encode := by
  rw [p.verdict_eq, tuple?, hbody]

theorem verdict_of_absent (h : ∀ f ∈ p.fields, doc.find? f = none) :
    p.evaluator.verdict r buffer = .answered none := by
  have hany : (p.fields.any fun f => (doc.find? f).isSome) = false := by
    rw [List.any_eq_false]
    intro f hf
    rw [h f hf]
    exact Bool.false_ne_true
  rw [p.verdict_of_object hbody buffer, tuple, hany]
  rfl

/-- A document with one of the fields has the key of all of them. -/
theorem verdict_of_present (h : ∃ f ∈ p.fields, doc.find? f ≠ none) :
    ∃ key, p.evaluator.verdict r buffer = .answered (some key) ∧
      (takeFields p.fields doc).encode = some key := by
  obtain ⟨f, hf, hdoc⟩ := h
  have hany : (p.fields.any fun f => (doc.find? f).isSome) = true :=
    List.any_eq_true.2 ⟨f, hf, Option.isSome_iff_ne_none.2 hdoc⟩
  have hne : (takeFields p.fields doc).isEmpty = false := by
    rw [← Bool.not_eq_true, List.isEmpty_iff_length_eq_zero, length_takeFields]
    exact (List.length_pos_of_mem hf).ne'
  have hkey : (takeFields p.fields doc).encode = some (takeFields p.fields doc).print := by
    rw [EmittedTuple.encode, hne]
    rfl
  refine ⟨_, ?_, hkey⟩
  rw [p.verdict_of_object hbody buffer, tuple, hany, if_pos rfl, hkey]

end Document

/-- **A projection emits each field where it is listed first.** A body that holds an object has no
key if and only if the object has none of the fields. Otherwise its key is that of a tuple with a
place for each field listed: at a place stands the value of the field, undefined if the object does
not have it, and undefined as well if the field was listed before. So the tuple has the value of the
field at every place if and only if no field that holds something is listed twice, null counting as
nothing. -/
theorem projects_first_mentions (p : Projection) (r : Request) (doc : Json.Members)
    (hbody : Json.parse r.body = .ok (.object doc)) (buffer : Option Buffer) :
    (p.evaluator.verdict r buffer = .answered none ↔ ∀ f ∈ p.fields, doc.find? f = none) ∧
      ((∃ f ∈ p.fields, doc.find? f ≠ none) → ∃ (tuple : EmittedTuple) (key : Bytes),
        p.evaluator.verdict r buffer = .answered (some key) ∧ tuple.encode = some key ∧
        tuple.length = p.fields.length ∧
        (∀ i f, p.fields[i]? = some f → tuple[i]? = some
          (if f ∈ p.fields.take i then .undefined
          else ((doc.find? f).map Emitted.ofJson).getD .undefined)) ∧
        ((tuple = p.fields.map fun f => ((doc.find? f).map Emitted.ofJson).getD .undefined) ↔
          ∀ f v, 2 ≤ p.fields.count f → doc.find? f = some v → v = .null)) := by
  refine ⟨⟨fun h => ?_, p.verdict_of_absent hbody buffer⟩, fun h => ?_⟩
  · by_contra hpresent
    push Not at hpresent
    obtain ⟨key, hkey, -⟩ := p.verdict_of_present hbody buffer hpresent
    rw [h] at hkey
    cases hkey
  · obtain ⟨key, hverdict, hkey⟩ := p.verdict_of_present hbody buffer h
    refine ⟨_, key, hverdict, hkey, length_takeFields p.fields doc, fun i f hf => ?_,
      takeFields_eq_map_iff⟩
    rw [getElem?_takeFields, hf]
    rfl

/-- A document with two fields. -/
def document : Json.Members :=
  [("a", .int (.ofInt64 1)), ("b", .array [.bool true])]

/-- A question about the body that holds a document. -/
def requestFor (doc : Json.Members) : Request :=
  let body := (Json.Value.object doc).print
  ⟨[], body, (Event.mutation 0 [] body).metadata⟩

theorem projects_first_mentions_repeated :
    let p : Projection := ⟨["b", "c", "b"]⟩
    Json.parse (requestFor document).body = .ok (.object document) ∧
      ∃ (tuple : EmittedTuple) (key : Bytes),
        p.evaluator.verdict (requestFor document) none = .answered (some key) ∧
        tuple.encode = some key ∧ tuple[0]? = some (.array [.flag true]) ∧
        tuple[1]? = some .undefined ∧ tuple[2]? = some .undefined := by
  intro p
  have hbody : Json.parse (requestFor document).body = .ok (.object document) :=
    Json.parse_print (by decide) nofun
  obtain ⟨-, hpresent⟩ := projects_first_mentions p (requestFor document) document hbody none
  obtain ⟨tuple, key, hverdict, hkey, -, hplaces, -⟩ :=
    hpresent ⟨"b", List.mem_cons_self, nofun⟩
  exact ⟨hbody, tuple, key, hverdict, hkey, hplaces 0 "b" rfl, hplaces 1 "c" rfl,
    hplaces 2 "b" rfl⟩

/-- **A field that is listed twice is lost** the second time: its value is emitted once, and then
undefined, though the document has the field. -/
theorem repeated_field_undefined :
    let p : Projection := ⟨["a", "a"]⟩
    document.find? "a" = some (.int (.ofInt64 1)) ∧
      p.evaluator.verdict (requestFor document) none =
        .answered (some (Json.ascii "[1,null]".toList)) ∧
      EmittedTuple.encode (p.fields.map fun f =>
        ((document.find? f).map Emitted.ofJson).getD .undefined) =
        some (Json.ascii "[1,1]".toList) := by
  intro p
  refine ⟨rfl, ?_, ?_⟩ <;> decide +kernel

end Projection

end IndexFeed
