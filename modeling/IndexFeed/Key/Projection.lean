import IndexFeed.Json.Reader
import IndexFeed.Key.Emitted
import IndexFeed.Key.Evaluator

/-!
# Projections

A transform that emits the top-level fields of a JSON object, in a given order. A document is in
the index if it is an object with at least one of the fields; a field that is absent, or that was
emitted already, is undefined.
-/

namespace IndexFeed

open Text (Bytes)

/-- The fields to emit, in order. -/
structure Projection where
  fields : List String
  deriving DecidableEq, Repr

namespace Projection

/-- The values of `fields`, each taken out of the members when it is emitted. -/
def takeFields : List String → Json.Members → EmittedTuple
  | [], _ => []
  | f :: fields, ms =>
    ((ms.find? f).map Emitted.ofJson).getD .undefined :: takeFields fields (ms.erase f)

def tuple (p : Projection) : Json.Value → EmittedTuple
  | .object ms =>
    if p.fields.any fun f => (Json.Members.find? ms f).isSome then takeFields p.fields ms else []
  | _ => []

def tuple? (p : Projection) (body : Bytes) : Except EvaluationError EmittedTuple :=
  match Json.parse body with
  | .ok v => .ok (p.tuple v)
  | .error e => .error (.raised ("document is not valid JSON: " ++ e.text))

def evaluator (p : Projection) : Evaluator where
  verdict request buffer :=
    match p.tuple? request.body with
    | .ok tuple => .answered (tuple.encodeWith buffer)
    | .error e => .failed e
  leaves request buffer :=
    match p.tuple? request.body with
    | .ok tuple => (tuple.encodeInto buffer).2
    | .error _ => buffer

end Projection

end IndexFeed
