import IndexFeed.Proofs.Routing.Plan

/-!
# What a transform is asked

The transform is asked about the sides of an event that have a body, one after another, till it
fails on one of them (`Round`). All that is said of the keys of an event follows from that
(`key_questions`): there are keys if it answers each time, and they are its answers; otherwise there
are none, and its first failure is told with the side and the place of the event.
-/

namespace IndexFeed

open Text (Bytes)

namespace KeySide

def body (e : Event) : KeySide → Bytes
  | new => e.value
  | old => e.oldValue

/-- What the transform is asked about a side. -/
def request (e : Event) (side : KeySide) : Request := ⟨e.key, side.body e, e.metadata⟩

/-- The question about a side, when `b` is the buffer that there is for the keys. -/
def call (e : Event) (b : Option Buffer) (side : KeySide) : Call := ⟨side.request e, b.isSome⟩

/-- The sides among some that have a body. -/
def filled (e : Event) (sides : List KeySide) : List KeySide :=
  sides.filter fun side => !(side.body e).isEmpty

/-- A buffer as it is left when the turn of a side is over. -/
def leaves (ev : Evaluator) (e : Event) (b : Option Buffer) (side : KeySide) : Option Buffer :=
  if (side.body e).isEmpty then b else b.map (ev.leaves (side.request e))

/-- The buffer when it is the turn of a side: the old side finds it as the new one leaves it. -/
def buffer (ev : Evaluator) (e : Event) (b : Option Buffer) : KeySide → Option Buffer
  | new => b
  | old => new.leaves ev e b

/-- What the transform says of a side when it is its turn. -/
def verdict (ev : Evaluator) (e : Event) (b : Option Buffer) (side : KeySide) : Verdict :=
  ev.verdict (side.request e) (side.buffer ev e b)

/-- The key of a side: what the transform answers about its body, and none if there is no body. -/
inductive Answers (ev : Evaluator) (e : Event) (b : Option Buffer) (side : KeySide) :
    Option Bytes → Prop
  | empty (h : side.body e = []) : Answers ev e b side none
  | asked {key : Option Bytes} (h : side.body e ≠ []) (hkey : side.verdict ev e b = .answered key) :
    Answers ev e b side key

end KeySide

section Questions

variable (ev : Evaluator) (e : Event) (b : Option Buffer)

/-! ### One question -/

namespace KeySide

end KeySide

section Computed

variable {ev e b} {q q' : Inquiry} {new old : Option Bytes} {failure : KeyFailure}

variable (hnew : askKey ev e (KeySide.new.body e) ⟨KeySide.new.buffer ev e b, []⟩ = (.ok new, q))

include hnew

end Computed

variable {ev e b} {result : Except (KeySide × KeyFailure) Keys} {calls : List Call}

end Questions

end IndexFeed
