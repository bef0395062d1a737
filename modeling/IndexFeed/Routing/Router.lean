import IndexFeed.Lifecycle
import IndexFeed.Routing.Counters
import IndexFeed.Routing.Decision
import IndexFeed.Routing.Definition

/-!
# Routers

A router serves one deployment of a transform. For a change of a document it computes the keys,
decides what is done, asks who has to hear of it, and adds one entry for each of them. An event
that fails adds nothing.
-/

namespace IndexFeed

open Text (Bytes)

structure Router where
  settings : RouterSettings
  evaluator : Evaluator
  resolver : Resolver

/-! ### Outcomes -/

/-- What a router did with an event. -/
inductive RouteAction where
  | upsert
  | fallbackDeletion
  | broadcastDeletion
  | deletion
  /-- The event was skipped. -/
  | dropped
  deriving DecidableEq, Repr

def RouteAction.name : RouteAction → String
  | upsert => "upsert"
  | fallbackDeletion => "fallback_deletion"
  | broadcastDeletion => "broadcast_deletion"
  | deletion => "deletion"
  | dropped => "dropped"

/-- The action that carries a decision out. -/
def Decision.action : Decision → RouteAction
  | upsert .. => .upsert
  | fallbackDeletion .. => .fallbackDeletion
  | broadcastDeletion .. => .broadcastDeletion
  | plainDeletion .. => .deletion

/-- An action, and for how many endpoints an entry was added. -/
structure RouteOutcome where
  action : RouteAction
  destinations : Nat
  deriving DecidableEq, Repr

/-- Why an event was not routed. -/
inductive RouteError where
  /-- It has no keys. -/
  | keys (side : KeySide) (failure : KeyFailure) (partition : UInt16) (seqno : UInt64)
  /-- Its opcode is not handled, and such opcodes are rejected. -/
  | unknownOpcode (opcode : Opcode) (partition : UInt16) (seqno : UInt64)
  deriving DecidableEq, Repr

namespace RouteError

/-- Whether the transform is at fault, and not the event. -/
def isEvaluationFailure : RouteError → Bool
  | keys .. => true
  | unknownOpcode .. => false

/-- Where an event stands, in words. -/
def place (partition : UInt16) (seqno : UInt64) : String :=
  " (partition " ++ toString partition.toNat ++ ", seqno " ++ toString seqno.toNat ++ ")"

def message : RouteError → String
  | keys side (.evaluation e) partition seqno =>
    "Transform failed computing the " ++ side.name ++ " key" ++ place partition seqno ++ ": " ++
      e.message
  | keys side (.panicked words) partition seqno =>
    "Transform panicked computing the " ++ side.name ++ " key" ++ place partition seqno ++ ": " ++
      words
  | unknownOpcode opcode partition seqno =>
    "Unsupported opcode " ++ opcode.text ++ place partition seqno ++ "."

end RouteError

/-! ### Resolving -/

/-- Who has to hear of an event, and what they are told. -/
structure Resolution where
  decision : Decision
  destinations : List Address
  /-- The questions to the resolver, in order. -/
  queries : List Query
  deriving DecidableEq, Repr

/-- The command that a decision comes to. A deletion is resolved by the old partition key, but its
command carries the new one. -/
def Decision.command (instanceId : UInt64) (keys : Keys) : Decision → Command
  | upsert newKey oldKey newPartitionKey => .upsert instanceId newKey oldKey newPartitionKey
  | fallbackDeletion oldKey newPartitionKey
  | broadcastDeletion oldKey newPartitionKey => .upsertDeletion instanceId oldKey newPartitionKey
  | plainDeletion _ oldKey => .deletion instanceId oldKey keys.newPartition

/-- The growth of the counters by a resolution that was carried out. -/
def Resolution.counters (r : Resolution) : Counters :=
  let n := r.destinations.length
  match r.decision with
  | .upsert .. => { eventsRouted := 1, upserts := n }
  | .fallbackDeletion .. => { eventsRouted := 1, upsertDeletions := n, fallbackDeletions := 1 }
  | .broadcastDeletion .. => { eventsRouted := 1, upsertDeletions := n }
  | .plainDeletion .. => { eventsRouted := 1, deletions := n }

/-- What routing an event leaves behind. -/
structure Routed where
  result : Except RouteError RouteOutcome
  accumulator : Accumulator
  buffer : Option Buffer
  calls : List Call := []
  queries : List Query := []
  counters : Counters := {}

namespace Router

def source (r : Router) : String := r.settings.definition.source

def query (e : Event) (keys : Keys) : Purpose → Query
  | .deletion => ⟨.deletion, e, keys.oldPartition, none, keys.old⟩
  | purpose => ⟨purpose, e, keys.newPartition, keys.new, keys.old⟩

/-- Who has to hear of a decision. An upsert that nobody takes becomes a removal by all who may hold
the old key. -/
def resolve (r : Router) (e : Event) (keys : Keys) (d : Decision) : Resolution :=
  let ask (purpose : Purpose) := query e keys purpose
  let answer (purpose : Purpose) := r.resolver.endpoints (ask purpose)
  match d with
  | .upsert .. =>
    if (answer .upsert).isEmpty then
      ⟨d.fallback.getD d, answer .upsertDeletion, [ask .upsert, ask .upsertDeletion]⟩
    else ⟨d, answer .upsert, [ask .upsert]⟩
  | .fallbackDeletion .. | .broadcastDeletion .. =>
    ⟨d, answer .upsertDeletion, [ask .upsertDeletion]⟩
  | .plainDeletion .. => ⟨d, answer .deletion, [ask .deletion]⟩

def entry (r : Router) (e : Event) (keys : Keys) (d : Decision) : Entry where
  seqno := e.seqno
  docid := e.key
  ctime := e.ctime
  command := d.command r.settings.definition.instanceId keys

/-- An event whose opcode the router does not handle. -/
def unhandled (r : Router) (e : Event) : Except RouteError RouteOutcome × Counters :=
  match r.settings.unknownOpcodes with
  | .drop => (.ok ⟨.dropped, 0⟩, { droppedOpcodes := 1 })
  | .reject => (.error (.unknownOpcode e.opcode e.partition e.seqno), {})

/-- The event as it is routed under an opcode: the attributes of a removed document that counts as
changed are its JSON body. -/
def prepared (e : Event) (opcode : Opcode) : Event := if opcode = e.opcode then e else e.treatAsJson

/-- Routes a change of a document with keys. -/
def deliver (r : Router) (e : Event) (keys : Keys) (d : Decision) (acc : Accumulator) :
    RouteOutcome × Accumulator × Resolution :=
  let resolution := r.resolve e keys d
  let entry := r.entry e keys resolution.decision
  let acc := resolution.destinations.foldl (fun acc a => acc.upsert a (e.stamp r.source) entry) acc
  (⟨resolution.decision.action, resolution.destinations.length⟩, acc, resolution)

/-- Routes an event into an accumulator, with a buffer for the keys if there is one. -/
def route (r : Router) (e : Event) (buffer : Option Buffer) (acc : Accumulator) : Routed :=
  let opcode := e.routedOpcode r.settings.definition.retainDeletedXattr
  if !opcode.isData then
    let (result, counters) := r.unhandled e
    { result, accumulator := acc, buffer, counters }
  else
    let e := prepared e opcode
    let (keys, inquiry) := computeKeys r.evaluator e (r.settings.feedVersion.gate buffer)
    let buffer := inquiry.buffer <|> buffer
    match keys with
    | .error (side, failure) =>
      { result := .error (.keys side failure e.partition e.seqno), accumulator := acc, buffer,
        calls := inquiry.calls, counters := { evaluationFailures := 1 } }
    | .ok keys =>
      match classify opcode keys with
      | none =>
        let (result, counters) := r.unhandled e
        { result, accumulator := acc, buffer, calls := inquiry.calls, counters }
      | some d =>
        let (outcome, acc, resolution) := r.deliver e keys d acc
        { result := .ok outcome, accumulator := acc, buffer, calls := inquiry.calls,
          queries := resolution.queries, counters := resolution.counters }

/-- The message that a control event calls for. -/
def control (r : Router) (e : Event) : Option Lifecycle := Lifecycle.ofEvent? r.source e

end Router

end IndexFeed
