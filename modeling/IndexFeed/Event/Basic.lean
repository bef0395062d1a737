import IndexFeed.Event.Datatype
import IndexFeed.Event.Opcode
import IndexFeed.Json.Value
import IndexFeed.Text.Utf8

/-!
# Events

An event of the change stream of a partition, and the metadata that a transform sees of it.
-/

namespace IndexFeed

open Text (Bytes)

/-- A range of sequence numbers that together show the partition at one time. -/
structure Snapshot where
  kind : UInt32
  first : UInt64
  last : UInt64
  deriving DecidableEq, Repr

/-- An event. The value is the body of the document, or the extended attributes that a removed one
leaves behind; empty means absent. -/
structure Event where
  opcode : Opcode
  partition : UInt16
  key : Bytes
  value : Bytes := []
  oldValue : Bytes := []
  datatype : Datatype := .none
  epoch : UInt64 := 0
  seqno : UInt64 := 0
  revSeqno : UInt64 := 0
  cas : UInt64 := 0
  ctime : UInt64 := 0
  expiration : UInt32 := 0
  flags : UInt32 := 0
  lockTime : UInt32 := 0
  nru : UInt8 := 0
  snapshot : Option Snapshot := none
  deriving DecidableEq, Repr

/-- What a transform sees of an event beside the body. -/
structure Metadata where
  /-- The document key, ill-formed parts replaced. -/
  id : String
  cas : UInt64
  expiration : UInt32
  flags : UInt32
  nru : UInt8
  seqno : UInt64
  revSeqno : UInt64
  lockTime : UInt32
  deriving DecidableEq, Repr

namespace Event

/-- An event of the document `key`. -/
def ofDocument (opcode : Opcode) (partition : UInt16) (key : Bytes) : Event :=
  { opcode, partition, key }

/-- A change of the document `key` to `value`. -/
def mutation (partition : UInt16) (key value : Bytes) : Event :=
  { opcode := .mutation, partition, key, value }

/-- An event about the stream of a partition. -/
def ofStream (opcode : Opcode) (partition : UInt16) (epoch seqno : UInt64) : Event :=
  { opcode, partition, key := [], epoch, seqno }

def snapshotMarker (partition : UInt16) (epoch seqno : UInt64) (snapshot : Snapshot) : Event :=
  { ofStream .snapshotMarker partition epoch seqno with snapshot := some snapshot }

/-- Whether the document has extended attributes. -/
def hasXattr (e : Event) : Bool := e.datatype.contains .xattr

/-- The event with its body marked as JSON. -/
def treatAsJson (e : Event) : Event := { e with datatype := e.datatype ||| .json }

def metadata (e : Event) : Metadata where
  id := Text.decodeLossy e.key
  cas := e.cas
  expiration := e.expiration
  flags := e.flags
  nru := e.nru
  seqno := e.seqno
  revSeqno := e.revSeqno
  lockTime := e.lockTime

end Event

/-- The metadata as a JSON object, members in this order. -/
def Metadata.toJson (m : Metadata) : Json.Value :=
  .object [
    ("id", .text m.id),
    ("cas", .int (.ofUInt64 m.cas)),
    ("expiration", .int (.ofUInt32 m.expiration)),
    ("flags", .int (.ofUInt32 m.flags)),
    ("nru", .int (.ofUInt8 m.nru)),
    ("byseqno", .int (.ofUInt64 m.seqno)),
    ("revseqno", .int (.ofUInt64 m.revSeqno)),
    ("locktime", .int (.ofUInt32 m.lockTime))]

end IndexFeed
