import IndexFeed.Key.Evaluator

/-!
# Computed keys

The index keys of an event: of the new and of the old body of its document. The transform is asked
about each body that is not empty, the new one first, and a failure of either leaves no keys.
-/

namespace IndexFeed

open Text (Bytes)

/-- Which body of a document is meant. -/
inductive KeySide where
  | new
  | old
  deriving DecidableEq, Repr

def KeySide.name : KeySide → String
  | new => "new"
  | old => "old"

structure Keys where
  new : Option Bytes := none
  old : Option Bytes := none
  newPartition : Option Bytes := none
  oldPartition : Option Bytes := none
  deriving DecidableEq, Repr

/-- Whether the document is, or was, in the index. -/
def Keys.matches (k : Keys) : Bool := k.new.isSome || k.old.isSome

inductive KeyFailure where
  /-- The transform reported an error. -/
  | evaluation (error : EvaluationError)
  /-- The transform broke down. -/
  | panicked (words : String)
  deriving DecidableEq, Repr

/-- What stands for unknown last words. -/
def unknownWords : String := "unknown panic payload"

structure Call where
  request : Request
  /-- Whether a buffer was offered. -/
  offered : Bool
  deriving DecidableEq, Repr

/-- What the questions about an event leave behind. -/
structure Inquiry where
  buffer : Option Buffer
  calls : List Call
  deriving DecidableEq, Repr

namespace Inquiry

/-- The inquiry after `ev` was asked about one more body. -/
def after (q : Inquiry) (ev : Evaluator) (request : Request) : Inquiry where
  buffer := q.buffer.map (ev.leaves request)
  calls := q.calls ++ [⟨request, q.buffer.isSome⟩]

end Inquiry

def Verdict.key : Verdict → Except KeyFailure (Option Bytes)
  | answered key => .ok key
  | failed e => .error (.evaluation e)
  | panicked words => .error (.panicked (words.getD unknownWords))

/-- Asks for the key of `body`; an empty body has none. -/
def askKey (ev : Evaluator) (e : Event) (body : Bytes) (q : Inquiry) :
    Except KeyFailure (Option Bytes) × Inquiry :=
  if body.isEmpty then (.ok none, q)
  else
    let request : Request := ⟨e.key, body, e.metadata⟩
    ((ev.verdict request q.buffer).key, q.after ev request)

/-- The keys of an event, or the side that failed and how. -/
def computeKeys (ev : Evaluator) (e : Event) (buffer : Option Buffer) :
    Except (KeySide × KeyFailure) Keys × Inquiry :=
  match askKey ev e e.value ⟨buffer, []⟩ with
  | (.error f, q) => (.error (.new, f), q)
  | (.ok new, q) =>
    match askKey ev e e.oldValue q with
    | (.error f, q) => (.error (.old, f), q)
    | (.ok old, q) => (.ok { new, old }, q)

end IndexFeed
