import IndexFeed.Key.Computed

/-!
# Decisions

What is done about an event, given its opcode and its keys. A removed document that keeps its
extended attributes counts as changed if the definition retains such documents.
-/

namespace IndexFeed

open Text (Bytes)

/-- What is done about a change of a document. -/
inductive Decision where
  /-- The new key goes to the endpoints that own it. -/
  | upsert (newKey oldKey newPartitionKey : Option Bytes)
  /-- No endpoint took the new key, and stale entries are removed. -/
  | fallbackDeletion (oldKey newPartitionKey : Option Bytes)
  /-- The document is not in the index any more, and every endpoint that may hold it removes it. -/
  | broadcastDeletion (oldKey newPartitionKey : Option Bytes)
  /-- The document was deleted or has expired. -/
  | plainDeletion (oldPartitionKey oldKey : Option Bytes)
  deriving DecidableEq, Repr

namespace Decision

/-- What is done instead of an upsert that no endpoint takes. -/
def fallback : Decision → Option Decision
  | upsert _ oldKey newPartitionKey => some (fallbackDeletion oldKey newPartitionKey)
  | _ => none

def name : Decision → String
  | upsert .. => "upsert"
  | fallbackDeletion .. => "upsert_with_fallback_deletion"
  | broadcastDeletion .. => "broadcast_deletion"
  | plainDeletion .. => "plain_deletion"

end Decision

def Event.routedOpcode (e : Event) (retain : Bool) : Opcode :=
  if retain && e.hasXattr && e.opcode.isRemoval then .mutation else e.opcode

/-- The decision for an opcode and the keys of its event; there is none for an opcode that is not a
change of a document. -/
def classify : Opcode → Keys → Option Decision
  | .mutation, k =>
    if k.matches then some (.upsert k.new k.old k.newPartition)
    else some (.broadcastDeletion k.old k.newPartition)
  | .deletion, k | .expiration, k => some (.plainDeletion k.oldPartition k.old)
  | _, _ => none

end IndexFeed
