import IndexFeed.Proofs.Json.RoundTrip
import IndexFeed.Replay.Output
import IndexFeed.Schema.Form

/-!
# Lines read back

What a consumer makes of a line: it reads the line as JSON and finds the parts of a record or of a
message by the names of their members; a key is the UTF-8 of its text, and null is an absent key.
The line that was printed is found again (`OutputLine.parse?_print`) if its keys are UTF-8, for then
no part of a key was replaced when it was written as a text.
-/

namespace IndexFeed

open Text (Bytes)
open Schema (Width)

/-! ### Reading -/

namespace Json

def Value.text? : Value → Option String
  | .text s => some s
  | _ => none

/-- The number of a width that a value is. -/
def Value.word? (w : Width) : Value → Option w.Word
  | .int n => if 0 ≤ n.val then w.ofNat? n.val.toNat else none
  | _ => none

/-- What `read` makes of the member called `name`. -/
def Members.get? {α : Type} (ms : Members) (name : String) (read : Value → Option α) : Option α :=
  (ms.find? name).bind read

end Json

open Json (Members)
open Json.Value (text? word?)

/-- The key that a value is, if it is one; null stands for no key. -/
def keyOfJson? : Json.Value → Option (Option Bytes)
  | .null => some none
  | .text s => some (some (Text.encode s))
  | _ => none

def Stamp.ofMembers? (ms : Members) : Option Stamp := do
  return {
    source := ← Members.get? ms "source" text?
    partition := ← Members.get? ms "partition_id" (word? .half)
    epoch := ← Members.get? ms "partition_epoch" (word? .long) }

/-- The operation called `name`, its particulars taken from the members. -/
def Command.ofMembers? (name : String) (ms : Members) : Option Command := do
  if name = "upsert" then
    return .upsert
      (← Members.get? ms "instance_id" (word? .long))
      (← Members.get? ms "key" keyOfJson?)
      (← Members.get? ms "old_key" keyOfJson?)
      (← Members.get? ms "partition_key" keyOfJson?)
  else if name = "upsert_deletion" then
    return .upsertDeletion
      (← Members.get? ms "instance_id" (word? .long))
      (← Members.get? ms "old_key" keyOfJson?)
      (← Members.get? ms "partition_key" keyOfJson?)
  else if name = "deletion" then
    return .deletion
      (← Members.get? ms "instance_id" (word? .long))
      (← Members.get? ms "old_key" keyOfJson?)
      (← Members.get? ms "partition_key" keyOfJson?)
  else if name = "stream_begin" then return .streamBegin
  else if name = "sync" then return .sync
  else if name = "snapshot" then
    return .snapshot {
      kind := ← Members.get? ms "snapshot_type" (word? .word)
      first := ← Members.get? ms "start" (word? .long)
      last := ← Members.get? ms "end" (word? .long) }
  else if name = "stream_end" then return .streamEnd
  else none

def Entry.ofJson? : Json.Value → Option Entry
  | .object ms => do
    return {
      seqno := ← Members.get? ms "seqno" (word? .long)
      docid := Text.encode (← Members.get? ms "docid" text?)
      ctime := ← Members.get? ms "ctime" (word? .long)
      command := ← Command.ofMembers? (← Members.get? ms "command" text?) ms }
  | _ => none

/-- The entries that the items of an array are. -/
def entriesOfJson? : Json.Value → Option (List Entry)
  | .array items => items.mapM Entry.ofJson?
  | _ => none

def Record.ofJson? : Json.Value → Option Record
  | .object ms => do
    return ⟨← Stamp.ofMembers? ms, ← Members.get? ms "entries" entriesOfJson?⟩
  | _ => none

def Lifecycle.ofJson? : Json.Value → Option Lifecycle
  | .object ms => do
    return ⟨← Stamp.ofMembers? ms, ← Members.get? ms "entry" Entry.ofJson?⟩
  | _ => none

namespace OutputLine

def ofJson? : Json.Value → Option OutputLine
  | .object ms => do
    let kind ← Members.get? ms "kind" text?
    if kind = "batch" then
      return .batch (← Members.get? ms "endpoint" text?) (← Members.get? ms "record" Record.ofJson?)
    else if kind = "lifecycle" then
      return .lifecycle (← Members.get? ms "message" Lifecycle.ofJson?)
    else none
  | _ => none

/-- The line that a text holds. -/
def parse? (text : Bytes) : Option OutputLine := (Json.parse text).toOption.bind ofJson?

/-- The entries of a line, be it the one of a message. -/
def entries : OutputLine → List Entry
  | batch _ record => record.entries
  | lifecycle message => [message.entry]

end OutputLine

/-! ### Keys that are UTF-8 -/

/-- Bytes in which nothing is replaced when they are written as a text. -/
def IsUtf8 (bytes : Bytes) : Prop := Text.encode (Text.decodeLossy bytes) = bytes

theorem isUtf8_encode (s : String) : IsUtf8 (Text.encode s) := by
  rw [IsUtf8, Text.decodeLossy_encode]

def Command.keys : Command → List (Option Bytes)
  | upsert _ key oldKey partitionKey => [key, oldKey, partitionKey]
  | upsertDeletion _ oldKey partitionKey | deletion _ oldKey partitionKey =>
    [oldKey, partitionKey]
  | streamBegin | sync | snapshot _ | streamEnd => []

/-- The document key of an entry and the keys of its operation are UTF-8. -/
structure Entry.HasUtf8 (e : Entry) : Prop where
  docid : IsUtf8 e.docid
  keys : ∀ key ∈ e.command.keys, ∀ bytes ∈ key, IsUtf8 bytes

/-! ### Members -/

section Members

variable (n : UInt64)

theorem word?_ofUInt64 : word? .long (.int (.ofUInt64 n)) = some n := by
  have hlt : n.toNat < 0x10000000000000000 := n.toNat_lt
  simp [word?, Json.WireInt.ofUInt64, Json.WireInt.ofNat, Width.ofNat?, Width.count, Width.wrap,
    hlt]

theorem word?_ofUInt32 (n : UInt32) : word? .word (.int (.ofUInt32 n)) = some n := by
  have hlt : n.toNat < 0x100000000 := n.toNat_lt
  simp [word?, Json.WireInt.ofUInt32, Json.WireInt.ofNat, Width.ofNat?, Width.count, Width.wrap,
    hlt]

theorem word?_ofUInt16 (n : UInt16) : word? .half (.int (.ofUInt16 n)) = some n := by
  have hlt : n.toNat < 0x10000 := n.toNat_lt
  simp [word?, Json.WireInt.ofUInt16, Json.WireInt.ofNat, Width.ofNat?, Width.count, Width.wrap,
    hlt]

/-- A key that is UTF-8 is read back, an absent one as none. -/
theorem keyOfJson?_keyToJson {key : Option Bytes} (h : ∀ bytes ∈ key, IsUtf8 bytes) :
    keyOfJson? (keyToJson key) = some key := by
  cases key with
  | none => rfl
  | some bytes => exact congrArg (fun bytes => some (some bytes)) (h bytes rfl)

theorem canonical_keyToJson (key : Option Bytes) : (keyToJson key).canonical = keyToJson key := by
  cases key <;> rfl

end Members

/-- Whatever reads a member called as one of `parts` reads that part in its canonical form. -/
def Shows (ms parts : Members) : Prop :=
  ∀ m ∈ parts, ∀ {α : Type} (read : Json.Value → Option α),
    Members.get? ms m.1 read = read m.2.canonical

/-- A canonical object shows all its members, if no name comes twice. -/
theorem shows_canonicalMembers {ms : Members} (h : (ms.map (·.1)).Nodup) :
    Shows (Json.Value.canonicalMembers ms) ms := by
  intro m hm α read
  rw [Members.get?, Json.Value.find?_canonicalMembers h, Json.Value.find?_of_mem h hm]
  rfl

theorem Shows.mono {ms parts parts' : Members} (h : Shows ms parts) (hsub : parts' ⊆ parts) :
    Shows ms parts' :=
  fun m hm _ read => h m (hsub hm) read

/-! ### Parts of a line -/

theorem Stamp.ofMembers?_of_shows {s : Stamp} {ms : Members} (h : Shows ms s.members) :
    ofMembers? ms = some s := by
  simp only [Shows, members, List.forall_mem_cons] at h
  obtain ⟨hsource, hpartition, hepoch, -⟩ := h
  simp [ofMembers?, hsource, hpartition, hepoch, text?, Json.Value.canonical, word?_ofUInt16,
    word?_ofUInt64]

theorem Command.ofMembers?_of_shows {c : Command} {ms : Members} (h : Shows ms c.members)
    (hkeys : ∀ key ∈ c.keys, ∀ bytes ∈ key, IsUtf8 bytes) : ofMembers? c.name ms = some c := by
  have hkey : ∀ key ∈ c.keys, keyOfJson? (keyToJson key).canonical = some key := by
    intro key hmem
    rw [canonical_keyToJson, keyOfJson?_keyToJson (hkeys key hmem)]
  cases c with
  | upsert instanceId key oldKey partitionKey =>
    simp only [Shows, members, List.forall_mem_cons] at h
    obtain ⟨hinstance, hnew, hold, hpartition, -⟩ := h
    simp only [keys, List.forall_mem_cons] at hkey
    simp [ofMembers?, name, hinstance, hnew, hold, hpartition, hkey, Json.Value.canonical,
      word?_ofUInt64]
  | upsertDeletion instanceId oldKey partitionKey
  | deletion instanceId oldKey partitionKey =>
    simp only [Shows, members, List.forall_mem_cons] at h
    obtain ⟨hinstance, hold, hpartition, -⟩ := h
    simp only [keys, List.forall_mem_cons] at hkey
    simp [ofMembers?, name, hinstance, hold, hpartition, hkey, Json.Value.canonical,
      word?_ofUInt64]
  | snapshot range =>
    simp only [Shows, members, List.forall_mem_cons] at h
    obtain ⟨hkind, hfirst, hlast, -⟩ := h
    simp [ofMembers?, name, hkind, hfirst, hlast, Json.Value.canonical, word?_ofUInt32,
      word?_ofUInt64]
  | streamBegin => rfl
  | sync => rfl
  | streamEnd => rfl

theorem Entry.ofJson?_toJson {e : Entry} (h : e.HasUtf8) : ofJson? e.toJson.canonical = some e := by
  obtain ⟨seqno, docid, ctime, command⟩ := e
  have hnames : ((([
      ("seqno", .int (.ofUInt64 seqno)),
      ("docid", keyToJson (some docid)),
      ("ctime", .int (.ofUInt64 ctime)),
      ("command", .text command.name)] : Members) ++ command.members).map (·.1)).Nodup := by
    cases command <;> simp [Command.members]
  have hshows := shows_canonicalMembers hnames
  have hcommand := Command.ofMembers?_of_shows
    (hshows.mono (List.subset_append_right _ _)) h.keys
  have hparts := hshows.mono (List.subset_append_left _ _)
  simp only [Shows, List.forall_mem_cons] at hparts
  obtain ⟨hseqno, hdocid, hctime, hname, -⟩ := hparts
  simp only [toJson, Json.Value.canonical, ofJson?]
  generalize Json.Value.canonicalMembers _ = ms at *
  have hutf8 : Text.encode (Text.decodeLossy docid) = docid := h.docid
  simp [hseqno, hdocid, hctime, hname, hcommand, Json.Value.canonical, keyToJson, text?,
    word?_ofUInt64, hutf8]

theorem entriesOfJson?_map_toJson {es : List Entry} (h : ∀ e ∈ es, e.HasUtf8) :
    entriesOfJson? (Json.Value.array (es.map Entry.toJson)).canonical = some es := by
  rw [Json.Value.canonical, Json.Value.canonicalItems_eq, List.map_map, entriesOfJson?]
  induction es with
  | nil => rfl
  | cons e es ih =>
    obtain ⟨he, hes⟩ := List.forall_mem_cons.1 h
    simp [List.mapM_cons, Entry.ofJson?_toJson he, ih hes]

theorem Record.ofJson?_toJson {r : Record} (h : ∀ e ∈ r.entries, e.HasUtf8) :
    ofJson? r.toJson.canonical = some r := by
  have hnames : ((r.stamp.members ++
      [("entries", Json.Value.array (r.entries.map Entry.toJson))]).map (·.1)).Nodup := by
    simp [Stamp.members]
  have hshows := shows_canonicalMembers hnames
  have hstamp := Stamp.ofMembers?_of_shows (hshows.mono (List.subset_append_left _ _))
  have hentries := hshows.mono (List.subset_append_right _ _) _ List.mem_cons_self entriesOfJson?
  rw [entriesOfJson?_map_toJson h] at hentries
  simp only [toJson, Json.Value.canonical, ofJson?, hstamp, hentries]
  rfl

theorem Lifecycle.ofJson?_toJson {m : Lifecycle} (h : m.entry.HasUtf8) :
    ofJson? m.toJson.canonical = some m := by
  have hnames : ((m.stamp.members ++ [("entry", m.entry.toJson)]).map (·.1)).Nodup := by
    simp [Stamp.members]
  have hshows := shows_canonicalMembers hnames
  have hstamp := Stamp.ofMembers?_of_shows (hshows.mono (List.subset_append_left _ _))
  have hentry := hshows.mono (List.subset_append_right _ _) _ List.mem_cons_self Entry.ofJson?
  rw [Entry.ofJson?_toJson h] at hentry
  simp only [toJson, Json.Value.canonical, ofJson?, hstamp, hentry]
  rfl

/-! ### Levels -/

namespace Json.Value

/-- A value with at most `n` levels and without a float. -/
structure Flat (n : Nat) (v : Json.Value) : Prop where
  height : v.height ≤ n
  floats : v.floats = []

theorem flat_text (s : String) : Flat 0 (.text s) := ⟨Nat.le_refl 0, rfl⟩

theorem flat_int (n : WireInt) : Flat 0 (.int n) := ⟨Nat.le_refl 0, rfl⟩

theorem flat_keyToJson (key : Option Bytes) : Flat 0 (keyToJson key) := by
  cases key <;> exact ⟨Nat.le_refl 0, rfl⟩

variable {n : Nat}

theorem Flat.mono {v : Json.Value} (h : Flat n v) {m : Nat} (hle : n ≤ m) : Flat m v :=
  ⟨h.height.trans hle, h.floats⟩

theorem flat_array {items : List Json.Value} (h : ∀ v ∈ items, Flat n v) :
    Flat (n + 1) (.array items) where
  height := Nat.succ_le_succ (itemsHeight_le.2 fun v hv => (h v hv).height)
  floats := by
    rw [Value.floats, itemsFloats_eq, List.flatMap_eq_nil_iff]
    exact fun v hv => (h v hv).floats

theorem flat_object {ms : Members} (h : ∀ m ∈ ms, Flat n m.2) : Flat (n + 1) (.object ms) where
  height := Nat.succ_le_succ (membersHeight_le.2 fun m hm => (h m hm).height)
  floats := by
    rw [Value.floats, membersFloats_eq, List.flatMap_eq_nil_iff]
    exact fun m hm => (h m hm).floats

end Json.Value

section Levels

open Json.Value

theorem Stamp.flat_members (s : Stamp) : ∀ m ∈ s.members, Flat 0 m.2 := by
  simp only [members, List.forall_mem_cons]
  exact ⟨flat_text _, flat_int _, flat_int _, nofun⟩

theorem Command.flat_members (c : Command) : ∀ m ∈ c.members, Flat 0 m.2 := by
  cases c with
  | upsert =>
    simp only [members, List.forall_mem_cons]
    exact ⟨flat_int _, flat_keyToJson _, flat_keyToJson _, flat_keyToJson _, nofun⟩
  | upsertDeletion | deletion =>
    simp only [members, List.forall_mem_cons]
    exact ⟨flat_int _, flat_keyToJson _, flat_keyToJson _, nofun⟩
  | snapshot =>
    simp only [members, List.forall_mem_cons]
    exact ⟨flat_int _, flat_int _, flat_int _, nofun⟩
  | streamBegin | sync | streamEnd => exact nofun

theorem Entry.flat_toJson (e : Entry) : Flat 1 e.toJson := by
  refine flat_object (List.forall_mem_append.2 ⟨?_, e.command.flat_members⟩)
  simp only [List.forall_mem_cons]
  exact ⟨flat_int _, flat_keyToJson _, flat_int _, flat_text _, nofun⟩

theorem Record.flat_toJson (r : Record) : Flat 3 r.toJson := by
  have hentries : Flat 2 (.array (r.entries.map Entry.toJson)) := by
    refine flat_array fun v hv => ?_
    obtain ⟨e, -, rfl⟩ := List.mem_map.1 hv
    exact e.flat_toJson
  have hstamp : ∀ m ∈ r.stamp.members, Flat 2 m.2 :=
    fun m hm => (r.stamp.flat_members m hm).mono (Nat.zero_le 2)
  exact flat_object (List.forall_mem_append.2 ⟨hstamp, List.forall_mem_singleton.2 hentries⟩)

theorem Lifecycle.flat_toJson (l : Lifecycle) : Flat 2 l.toJson := by
  have hstamp : ∀ m ∈ l.stamp.members, Flat 1 m.2 :=
    fun m hm => (l.stamp.flat_members m hm).mono (Nat.zero_le 1)
  exact flat_object
    (List.forall_mem_append.2 ⟨hstamp, List.forall_mem_singleton.2 l.entry.flat_toJson⟩)

/-- A line has no more levels than its record, and that has three. -/
theorem OutputLine.flat_toJson (line : OutputLine) : Flat 4 line.toJson := by
  cases line with
  | batch endpoint record =>
    rw [toJson]
    refine flat_object ?_
    simp only [List.forall_mem_cons]
    exact ⟨(flat_text _).mono (Nat.zero_le 3), (flat_text _).mono (Nat.zero_le 3),
      record.flat_toJson, nofun⟩
  | lifecycle message =>
    rw [toJson]
    refine flat_object ?_
    simp only [List.forall_mem_cons]
    exact ⟨(flat_text _).mono (Nat.zero_le 3), message.flat_toJson.mono (by decide), nofun⟩

end Levels

/-! ### Lines -/

namespace OutputLine

variable {line : OutputLine}

theorem ofJson?_toJson (h : ∀ e ∈ line.entries, e.HasUtf8) :
    ofJson? line.toJson.canonical = some line := by
  cases line with
  | batch endpoint record =>
    have hnames : (([("kind", .text "batch"), ("endpoint", .text endpoint),
        ("record", record.toJson)] : Members).map (·.1)).Nodup := by
      simp
    have hshows := shows_canonicalMembers hnames
    simp only [Shows, List.forall_mem_cons] at hshows
    obtain ⟨hkind, hendpoint, hrecord, -⟩ := hshows
    simp only [toJson, Json.Value.canonical, ofJson?, hkind, hendpoint, hrecord,
      Record.ofJson?_toJson h, text?]
    rfl
  | lifecycle message =>
    have hnames : (([("kind", .text "lifecycle"), ("message", message.toJson)] : Members).map
        (·.1)).Nodup := by
      simp
    have hshows := shows_canonicalMembers hnames
    simp only [Shows, List.forall_mem_cons] at hshows
    obtain ⟨hkind, hmessage, -⟩ := hshows
    have hentry : message.entry.HasUtf8 := h message.entry List.mem_cons_self
    simp only [toJson, Json.Value.canonical, ofJson?, hkind, hmessage,
      Lifecycle.ofJson?_toJson hentry, text?]
    rfl

/-- **A line is read back from its text.** -/
theorem parse?_print (h : ∀ e ∈ line.entries, e.HasUtf8) : parse? line.print = some line := by
  obtain ⟨hheight, hfloats⟩ := flat_toJson line
  have hlevels : line.toJson.height ≤ Json.levels := hheight.trans (by decide)
  have hread := Json.parse_print hlevels (by simp [hfloats])
  rw [Json.Value.reread_of_floats_eq_nil hfloats] at hread
  rw [parse?, print, hread]
  exact ofJson?_toJson h

/-- A line feed and quotes in an address, a key that spells null, and one that is absent. -/
example :
    let line : OutputLine := .batch "a\n\"b\"" ⟨⟨"é", 65535, 18446744073709551615⟩,
      [⟨18446744073709551615, [0x7F], 1, .deletion 7 (some (Text.encode "null")) none⟩]⟩
    parse? line.print = some line := by
  decide +kernel

end OutputLine

end IndexFeed
