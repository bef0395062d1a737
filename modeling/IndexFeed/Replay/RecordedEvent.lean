import IndexFeed.Event.Basic
import IndexFeed.Json.Printer
import IndexFeed.Schema.FromText

/-!
# Recorded events

An event as a line of a recording holds it, and the event that it stands for. Bodies are JSON
values in a recording and their texts in the event.
-/

namespace IndexFeed

open Text (Bytes)
open Schema (Form)

/-- An opcode is held by its name; a code without a meaning comes with the name `other`. -/
def Opcode.form : Form Opcode :=
  .choice "RecordOpcode"
    (.plain "mutation" mutation (.plain "deletion" deletion (.plain "expiration" expiration
      (.plain "stream_begin" streamBegin (.plain "stream_end" streamEnd
        (.plain "snapshot_marker" snapshotMarker (.plain "sync" sync
          (.carrying "other" (.word .byte) other .nil))))))))

def Snapshot.form : Form Snapshot :=
  .record "RecordSnapshot"
    (.cons "type" (.word .word) (some 0)
      (.cons "start" (.word .long) none (.cons "end" (.word .long) none .nil)))
    fun (kind, first, last, ()) => { kind, first, last }

/-- A line of a recording. -/
structure RecordedEvent where
  opcode : Opcode
  partition : UInt16
  epoch : UInt64 := 0
  seqno : UInt64 := 0
  key : String := ""
  value : Option Json.Value := none
  oldValue : Option Json.Value := none
  xattrs : Option Json.Value := none
  cas : UInt64 := 0
  revSeqno : UInt64 := 0
  ctime : UInt64 := 0
  expiration : UInt32 := 0
  flags : UInt32 := 0
  snapshot : Option Snapshot := none

/-- Why a line does not stand for an event. -/
inductive RecordError where
  | unreadable (failure : Json.Failure Schema.Fault)
  | snapshotMissing

def RecordError.message : RecordError → String
  | unreadable failure => "Failed to parse stream record.: " ++ Schema.failureText failure
  | snapshotMissing => "Snapshot marker record is missing `snapshot`."

namespace RecordedEvent

def form : Form RecordedEvent :=
  .record "StreamRecord"
    (.cons "opcode" Opcode.form none
      (.cons "partition" (.word .half) none
        (.cons "epoch" (.word .long) (some 0)
          (.cons "seqno" (.word .long) (some 0)
            (.cons "key" .text (some "")
              (.cons "value" (.optional .json) (some none)
                (.cons "old_value" (.optional .json) (some none)
                  (.cons "xattrs" (.optional .json) (some none)
                    (.cons "cas" (.word .long) (some 0)
                      (.cons "rev_seqno" (.word .long) (some 0)
                        (.cons "ctime" (.word .long) (some 0)
                          (.cons "expiration" (.word .word) (some 0)
                            (.cons "flags" (.word .word) (some 0)
                              (.cons "snapshot" (.optional Snapshot.form) (some none)
                                .nil))))))))))))))
    fun (opcode, partition, epoch, seqno, key, value, oldValue, xattrs, cas, revSeqno, ctime,
        expiration, flags, snapshot, ()) =>
      { opcode, partition, epoch, seqno, key, value, oldValue, xattrs, cas, revSeqno, ctime,
        expiration, flags, snapshot }

def ofLine (line : Bytes) : Except RecordError RecordedEvent :=
  match form.parse line with
  | .ok r => .ok r
  | .error e => .error (.unreadable e)

/-- The event without its bodies. -/
def outline (r : RecordedEvent) : Except RecordError Event :=
  match r.opcode with
  | .streamBegin | .streamEnd | .sync => .ok (.ofStream r.opcode r.partition r.epoch r.seqno)
  | .snapshotMarker =>
    match r.snapshot with
    | some s => .ok (.snapshotMarker r.partition r.epoch r.seqno s)
    | none => .error .snapshotMissing
  | opcode =>
    .ok { Event.ofDocument opcode r.partition (Text.encode r.key) with
      epoch := r.epoch, seqno := r.seqno }

/-- The body of the event: the extended attributes of a removed document come before its value. -/
def body (r : RecordedEvent) : Option Json.Value :=
  if r.opcode.isRemoval then r.xattrs <|> r.value else r.value

/-- The text of a body, empty if there is none. -/
def bodyText : Option Json.Value → Bytes
  | some v => v.print
  | none => []

def datatype (r : RecordedEvent) : Datatype :=
  (if r.value.isSome then Datatype.json else .none) |||
    if r.xattrs.isSome then Datatype.xattr else .none

def toEvent (r : RecordedEvent) : Except RecordError Event :=
  r.outline.map fun e =>
    { e with
      value := bodyText r.body
      oldValue := bodyText r.oldValue
      datatype := r.datatype
      cas := r.cas
      revSeqno := r.revSeqno
      ctime := r.ctime
      expiration := r.expiration
      flags := r.flags }

end RecordedEvent

end IndexFeed
