import IndexFeed.Proofs.Routing.Plan

/-!
# Retained documents

A removed document that keeps its extended attributes is routed under the opcode of a change, though
the event still shows its own. Only the questions to the resolver show it: all that comes after the
keys is the same under any opcode shown (`Router.conclude_showing`). So a document is retained
exactly as it would be changed, and retention is no matter of any other event
(`retained_as_mutation`).
-/

namespace IndexFeed

open Text (Bytes)

namespace Event

/-- The event under another opcode. -/
def showing (e : Event) (opcode : Opcode) : Event := { e with opcode }

/-- Whether a document is removed that keeps its extended attributes. -/
def isTombstone (e : Event) : Bool := e.opcode.isRemoval && e.hasXattr

/-- The change of a document to the extended attributes that it keeps. -/
def asMutation (e : Event) : Event :=
  { e with opcode := .mutation, datatype := e.datatype ||| .json }

end Event

def Query.showing (q : Query) (opcode : Opcode) : Query :=
  { q with event := q.event.showing opcode }

def Resolution.showing (resolution : Resolution) (opcode : Opcode) : Resolution :=
  { resolution with queries := resolution.queries.map (·.showing opcode) }

/-- The same outcome, with another opcode in the questions to the resolver. -/
def Routed.showing (out : Routed) (opcode : Opcode) : Routed :=
  { out with queries := out.queries.map (·.showing opcode) }

/-- Whether a resolver gives the same answer whatever the opcode of the event. -/
def Resolver.IgnoresOpcode (resolver : Resolver) : Prop :=
  ∀ q opcode, resolver.endpoints (q.showing opcode) = resolver.endpoints q

def Router.withRetention (r : Router) (retain : Bool) : Router :=
  { r with settings := { r.settings with
      definition := { r.settings.definition with retainDeletedXattr := retain } } }

namespace Router

variable {r : Router} (e : Event)

/-! ### Events under another opcode -/

section Showing

variable (opcode : Opcode)

theorem computeKeys_showing (ev : Evaluator) (b : Option Buffer) :
    computeKeys ev (e.showing opcode) b = computeKeys ev e b := rfl

theorem query_showing (keys : Keys) (purpose : Purpose) :
    query (e.showing opcode) keys purpose = (query e keys purpose).showing opcode := by
  cases purpose <;> rfl

variable (hr : r.resolver.IgnoresOpcode)

include hr

theorem resolve_showing (keys : Keys) (d : Decision) :
    r.resolve (e.showing opcode) keys d = (r.resolve e keys d).showing opcode := by
  have hanswer : ∀ q, r.resolver.endpoints (q.showing opcode) = r.resolver.endpoints q :=
    fun q => hr q opcode
  cases d with
  | upsert newKey oldKey newPartitionKey =>
    simp only [resolve, query_showing, hanswer]
    split <;> rfl
  | fallbackDeletion oldKey newPartitionKey =>
    simp [resolve, Resolution.showing, query_showing, hanswer]
  | broadcastDeletion oldKey newPartitionKey =>
    simp [resolve, Resolution.showing, query_showing, hanswer]
  | plainDeletion oldPartitionKey oldKey =>
    simp [resolve, Resolution.showing, query_showing, hanswer]

theorem deliver_showing (keys : Keys) (d : Decision) (acc : Accumulator) :
    r.deliver (e.showing opcode) keys d acc =
      ((r.deliver e keys d acc).1, (r.deliver e keys d acc).2.1,
        (r.resolve e keys d).showing opcode) := by
  simp only [deliver, resolve_showing e opcode hr]
  rfl

/-- **What comes of an event after its keys shows the opcode in the questions to the resolver
alone**, if it is routed under an opcode that is handled. -/
theorem conclude_showing {routed : Opcode} (hrouted : routed.isData = true) (b : Option Buffer)
    (acc : Accumulator) (out : Except (KeySide × KeyFailure) Keys × Inquiry) :
    r.conclude (e.showing opcode) routed b acc out =
      (r.conclude e routed b acc out).showing opcode := by
  obtain ⟨⟨side, failure⟩ | keys, q⟩ := out
  · rfl
  · obtain ⟨d, hd⟩ :=
      Option.isSome_iff_exists.1 ((classify_isSome routed keys).trans hrouted)
    simp only [conclude, hd, deliver_showing e opcode hr]
    rfl

end Showing

/-! ### The opcode that counts -/

theorem opcodeOf_asMutation : r.opcodeOf e.asMutation = .mutation := by
  simp [opcodeOf, Event.routedOpcode, Event.asMutation, Opcode.isRemoval]

theorem taken_asMutation : r.taken e.asMutation = e.asMutation := by
  have hopcode : r.opcodeOf e.asMutation = e.asMutation.opcode := opcodeOf_asMutation e
  rw [taken, prepared, if_pos hopcode]

variable {e}

theorem opcodeOf_tombstone (hretain : r.settings.definition.retainDeletedXattr = true)
    (he : e.isTombstone = true) : r.opcodeOf e = .mutation := by
  obtain ⟨hremoval, hxattr⟩ := Bool.and_eq_true_iff.1 he
  rw [opcodeOf, Event.routedOpcode, hretain, hxattr, hremoval]
  rfl

/-- A retained document is taken as its change, but under the opcode that it came with. -/
theorem taken_tombstone (hretain : r.settings.definition.retainDeletedXattr = true)
    (he : e.isTombstone = true) : r.taken e = e.asMutation.showing e.opcode := by
  have hne : Opcode.mutation ≠ e.opcode := by
    intro heq
    rw [Event.isTombstone, ← heq] at he
    cases he
  rw [taken, prepared, opcodeOf_tombstone hretain he, if_neg hne]
  rfl

theorem opcodeOf_of_not_isTombstone (he : e.isTombstone = false) : r.opcodeOf e = e.opcode := by
  have hcomm : (e.hasXattr && e.opcode.isRemoval) = false := (Bool.and_comm ..).trans he
  rw [opcodeOf, Event.routedOpcode, Bool.and_assoc, hcomm, Bool.and_false]
  rfl

theorem route_withRetention (he : e.isTombstone = false) (retain : Bool) (b : Option Buffer)
    (acc : Accumulator) : (r.withRetention retain).route e b acc = r.route e b acc := by
  have hopcode : (r.withRetention retain).opcodeOf e = r.opcodeOf e := by
    rw [opcodeOf_of_not_isTombstone he, opcodeOf_of_not_isTombstone he]
  have htaken : (r.withRetention retain).taken e = r.taken e := by
    rw [taken, taken, hopcode]
  have hkeys : (r.withRetention retain).keysOf e b = r.keysOf e b := by
    rw [keysOf, keysOf, htaken]
    rfl
  rw [route_eq, route_eq, hopcode, htaken, hkeys]
  rfl

end Router

open Router

/-- **A document is retained exactly as it would be changed, and nothing else is.** A router that
retains removed documents, and whose resolver does not look at opcodes, treats one that keeps its
extended attributes as the change to these: it comes to the same, the transform is asked the same,
the same is counted and the same is put in, and the resolver is asked the same but that it is shown
the event's own opcode. Every other event is routed as if retention were set otherwise. -/
theorem retained_as_mutation (r : Router) :
    (r.settings.definition.retainDeletedXattr = true → r.resolver.IgnoresOpcode →
      ∀ e : Event, e.isTombstone = true → ∀ b acc,
        r.route e b acc = (r.route e.asMutation b acc).showing e.opcode) ∧
      ∀ e : Event, e.isTombstone = false → ∀ retain b acc,
        (r.withRetention retain).route e b acc = r.route e b acc := by
  refine ⟨fun hretain hr e he b acc => ?_, fun e he retain b acc => ?_⟩
  · have hkeys : r.keysOf e b = r.keysOf e.asMutation b := by
      rw [keysOf, keysOf, taken_tombstone hretain he, taken_asMutation, computeKeys_showing]
    have hdata : Opcode.mutation.isData = true := rfl
    rw [route_eq, route_eq, opcodeOf_tombstone hretain he, opcodeOf_asMutation, if_pos hdata,
      if_pos hdata, taken_tombstone hretain he, taken_asMutation, hkeys]
    exact conclude_showing _ _ hr hdata b acc _
  · exact route_withRetention he retain b acc

/-- A router that retains removed documents and has two endpoints for documents with a new key. -/
def Router.retaining : Router where
  settings := { definition := { source := "orders", instanceId := 7, retainDeletedXattr := true } }
  evaluator := { verdict := fun request _ => .answered (some request.body) }
  resolver := ⟨fun q => if q.newKey.isSome then ["a", "b"] else []⟩

/-- An expired document that keeps an attribute. -/
def Event.tombstone : Event :=
  { Event.ofDocument .expiration 3 [7] with value := [1], oldValue := [2], datatype := .xattr }

theorem retained_as_mutation_expired :
    let r := Router.retaining
    let e := Event.tombstone
    r.resolver.IgnoresOpcode ∧ e.isTombstone = true ∧ e.asMutation.isTombstone = false ∧
      (r.route e (some .empty) .empty).result = .ok ⟨.upsert, 2⟩ ∧
      (r.route e (some .empty) .empty).accumulator =
        (r.route e.asMutation (some .empty) .empty).accumulator ∧
      ((r.withRetention false).route e.asMutation none .empty).counters =
        (r.route e.asMutation none .empty).counters := by
  intro r e
  have hignores : r.resolver.IgnoresOpcode := fun _ _ => rfl
  obtain ⟨htombstone, hothers⟩ := retained_as_mutation r
  refine ⟨hignores, by decide, by decide, by decide +kernel, ?_, ?_⟩
  · rw [htombstone rfl hignores e (by decide) (some .empty) .empty]
    rfl
  · rw [hothers e.asMutation (by decide) false none .empty]

end IndexFeed
