import IndexFeed.Event.Basic
import IndexFeed.Key.Buffer

/-!
# Evaluators

A transform is supplied from outside. All that is known of it is its verdict on a body of a
document: a key, that the body has none, an error, or that it broke down.
-/

namespace IndexFeed

open Text (Bytes)

structure Request where
  key : Bytes
  body : Bytes
  metadata : Metadata
  deriving DecidableEq, Repr

inductive EvaluationError where
  /-- The transform reported an error of its own. -/
  | raised (reason : String)
  /-- What was emitted cannot be written as a key. -/
  | encode (reason : String)
  deriving DecidableEq, Repr

def EvaluationError.message : EvaluationError → String
  | raised reason => "Transform raised an error: " ++ reason
  | encode reason => "Failed to encode emitted values as a key: " ++ reason

inductive Verdict where
  /-- The key, or none if the document is not in the index. -/
  | answered (key : Option Bytes)
  | failed (error : EvaluationError)
  /-- The transform broke down; its last words may be unknown. -/
  | panicked (words : Option String)
  deriving DecidableEq, Repr

/-- A transform. -/
structure Evaluator where
  /-- The verdict on a request, with the buffer that is offered. -/
  verdict : Request → Option Buffer → Verdict
  /-- The buffer as the request leaves it. -/
  leaves : Request → Buffer → Buffer := fun _ b => b

end IndexFeed
