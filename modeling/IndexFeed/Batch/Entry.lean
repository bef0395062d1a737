import IndexFeed.Event.Basic

/-!
# Entries

The operations that endpoints are told to do: on the index entry of a document, or about the
stream of a partition.
-/

namespace IndexFeed

open Text (Bytes)

inductive Command where
  | upsert (instanceId : UInt64) (key oldKey partitionKey : Option Bytes)
  | upsertDeletion (instanceId : UInt64) (oldKey partitionKey : Option Bytes)
  | deletion (instanceId : UInt64) (oldKey partitionKey : Option Bytes)
  | streamBegin
  | sync
  | snapshot (range : Snapshot)
  | streamEnd
  deriving DecidableEq, Repr

namespace Command

/-- Whether the operation is about the stream. -/
def isControl : Command → Bool
  | upsert .. | upsertDeletion .. | deletion .. => false
  | _ => true

def name : Command → String
  | upsert .. => "upsert"
  | upsertDeletion .. => "upsert_deletion"
  | deletion .. => "deletion"
  | streamBegin => "stream_begin"
  | sync => "sync"
  | snapshot _ => "snapshot"
  | streamEnd => "stream_end"

end Command

/-- An operation and the change that it comes from. -/
structure Entry where
  seqno : UInt64
  docid : Bytes
  ctime : UInt64
  command : Command
  deriving DecidableEq, Repr

/-! ### JSON -/

/-- A key as text, ill-formed parts replaced; null if it is absent. -/
def keyToJson : Option Bytes → Json.Value
  | some bytes => .text (Text.decodeLossy bytes)
  | none => .null

/-- The members that are particular to an operation. -/
def Command.members : Command → Json.Members
  | upsert instanceId key oldKey partitionKey => [
      ("instance_id", .int (.ofUInt64 instanceId)),
      ("key", keyToJson key),
      ("old_key", keyToJson oldKey),
      ("partition_key", keyToJson partitionKey)]
  | upsertDeletion instanceId oldKey partitionKey
  | deletion instanceId oldKey partitionKey => [
      ("instance_id", .int (.ofUInt64 instanceId)),
      ("old_key", keyToJson oldKey),
      ("partition_key", keyToJson partitionKey)]
  | snapshot range => [
      ("snapshot_type", .int (.ofUInt32 range.kind)),
      ("start", .int (.ofUInt64 range.first)),
      ("end", .int (.ofUInt64 range.last))]
  | streamBegin | sync | streamEnd => []

/-- An entry as a JSON object, the members of its operation last. -/
def Entry.toJson (e : Entry) : Json.Value :=
  .object ([
    ("seqno", .int (.ofUInt64 e.seqno)),
    ("docid", keyToJson (some e.docid)),
    ("ctime", .int (.ofUInt64 e.ctime)),
    ("command", .text e.command.name)] ++ e.command.members)

end IndexFeed
