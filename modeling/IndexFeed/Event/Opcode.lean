import IndexFeed.Text.Quoted

/-!
# Opcodes

What an event of a change stream tells: a change of a document, the state of the stream, or
something that has no meaning here.
-/

namespace IndexFeed

inductive Opcode where
  | mutation
  | deletion
  | expiration
  | streamBegin
  | streamEnd
  | snapshotMarker
  | sync
  /-- A code without a meaning of its own. -/
  | other (code : UInt8)
  deriving DecidableEq, Repr

namespace Opcode

/-- Whether the event is a change of a document. -/
def isData : Opcode → Bool
  | mutation | deletion | expiration => true
  | _ => false

/-- Whether the event tells the state of the stream. -/
def isControl : Opcode → Bool
  | streamBegin | streamEnd | snapshotMarker | sync => true
  | _ => false

/-- Whether the event takes a document away. -/
def isRemoval : Opcode → Bool
  | deletion | expiration => true
  | _ => false

/-- The name of an opcode; codes without a meaning share one. -/
def name : Opcode → String
  | mutation => "mutation"
  | deletion => "deletion"
  | expiration => "expiration"
  | streamBegin => "stream_begin"
  | streamEnd => "stream_end"
  | snapshotMarker => "snapshot_marker"
  | sync => "sync"
  | other _ => "other"

def twoDigits (b : UInt8) : String :=
  String.ofList (Text.hexDigits (b.toNat / 16) ++ Text.hexDigits (b.toNat % 16))

/-- The text of an opcode, which tells codes apart. -/
def text : Opcode → String
  | other code => "other(0x" ++ twoDigits code ++ ")"
  | op => op.name

end Opcode

end IndexFeed
