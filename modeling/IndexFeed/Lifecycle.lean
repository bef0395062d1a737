import IndexFeed.Batch.Accumulator

/-!
# Lifecycle messages

What endpoints are told about the stream of a partition: where it begins and ends, a snapshot, or
how far it has come. Such a message goes out on its own and never with the entries of documents.
-/

namespace IndexFeed

/-- A message about a stream. -/
structure Lifecycle where
  stamp : Stamp
  entry : Entry
  deriving DecidableEq, Repr

/-- The stamp of an event that was read from `source`. -/
def Event.stamp (e : Event) (source : String) : Stamp := ⟨source, e.partition, e.epoch⟩

namespace Lifecycle

/-- A message about the stream of an event; only a snapshot tells the time. -/
def ofCommand (source : String) (e : Event) (ctime : UInt64) (command : Command) : Lifecycle :=
  ⟨e.stamp source, { seqno := e.seqno, docid := [], ctime, command }⟩

def streamBegin (source : String) (e : Event) : Lifecycle := ofCommand source e 0 .streamBegin

def sync (source : String) (e : Event) : Lifecycle := ofCommand source e 0 .sync

/-- The range of an event without a snapshot is empty. -/
def snapshot (source : String) (e : Event) : Lifecycle :=
  ofCommand source e e.ctime (.snapshot (e.snapshot.getD ⟨0, 0, 0⟩))

def streamEnd (source : String) (e : Event) : Lifecycle := ofCommand source e 0 .streamEnd

/-- The message that a control event calls for. -/
def ofEvent? (source : String) (e : Event) : Option Lifecycle :=
  match e.opcode with
  | .streamBegin => some (streamBegin source e)
  | .sync => some (sync source e)
  | .snapshotMarker => some (snapshot source e)
  | .streamEnd => some (streamEnd source e)
  | _ => none

def toJson (m : Lifecycle) : Json.Value :=
  .object (m.stamp.members ++ [("entry", m.entry.toJson)])

end Lifecycle

end IndexFeed
