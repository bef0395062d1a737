import IndexFeed.Key.Projection

/-!
# Keys and buffers

A key written through a buffer is the key written without one, whatever the buffer held
(`encodeInto_eq`). So a projection answers with the same key whether it is offered a buffer or not
(`Projection.verdict_eq`).
-/

namespace IndexFeed

open Text (Bytes)

/-! ### Keys through one buffer -/

namespace EmittedTuple

/-- The keys of tuples that are encoded one after another through one buffer, each with the buffer
as it is left. -/
def encodeAll (buffer : Buffer) : List EmittedTuple → List (Option Bytes × Buffer)
  | [] => []
  | tuple :: tuples =>
    let out := encodeInto buffer tuple
    out :: encodeAll out.2 tuples

/-- A buffer after a tuple: an empty tuple leaves it alone, any other leaves it empty. -/
def settle (buffer : Buffer) (tuple : EmittedTuple) : Buffer :=
  if tuple.isEmpty then buffer else .empty

/-- The key is the one without a buffer, since what the buffer held is cleared away before the key
is written, and the key itself is split off after it. -/
theorem encodeInto_eq (buffer : Buffer) (tuple : EmittedTuple) :
    encodeInto buffer tuple = (encode tuple, settle buffer tuple) := by
  unfold encodeInto encode settle
  split <;> rfl

theorem encodeWith_eq (buffer : Option Buffer) (tuple : EmittedTuple) :
    encodeWith buffer tuple = encode tuple := by
  cases buffer with
  | none => rfl
  | some buffer => rw [encodeWith, encodeInto_eq]

theorem encodeAll_keys (buffer : Buffer) (tuples : List EmittedTuple) :
    (encodeAll buffer tuples).map (·.1) = tuples.map encode := by
  induction tuples generalizing buffer with
  | nil => rfl
  | cons tuple tuples ih => rw [encodeAll, List.map_cons, List.map_cons, ih, encodeInto_eq]

theorem encodeAll_buffers (buffer : Buffer) (tuples : List EmittedTuple) :
    buffer :: (encodeAll buffer tuples).map (·.2) = tuples.scanl settle buffer := by
  induction tuples generalizing buffer with
  | nil => rfl
  | cons tuple tuples ih =>
    rw [encodeAll, List.map_cons, ih, List.scanl_cons, encodeInto_eq]

end EmittedTuple

/-! ### Transforms that cannot tell whether a buffer is offered -/

/-- Whether a transform gives the same verdict with any buffer, and without one. -/
def Evaluator.Transparent (ev : Evaluator) : Prop :=
  ∀ request b b', ev.verdict request b = ev.verdict request b'

theorem Projection.verdict_eq (p : Projection) (r : Request) (buffer : Option Buffer) :
    p.evaluator.verdict r buffer = match p.tuple? r.body with
      | .ok tuple => .answered tuple.encode
      | .error e => .failed e := by
  cases hread : p.tuple? r.body with
  | ok tuple => simp only [evaluator, hread, EmittedTuple.encodeWith_eq]
  | error e => simp only [evaluator, hread]

theorem Projection.transparent (p : Projection) : p.evaluator.Transparent := by
  intro request b b'
  rw [p.verdict_eq request b, p.verdict_eq request b']

end IndexFeed
