import IndexFeed.Proofs.Json.OneLine
import IndexFeed.Proofs.Replay.OutputText
import IndexFeed.Proofs.Replay.RecordedKeys
import IndexFeed.Proofs.Replay.Schedule
import IndexFeed.Proofs.Routing.Ownership

/-!
# What a replay writes is read back

The lines of all partitions go out one after another, each with a line feed behind it. A line holds
no line feed of its own (`lines_transcript`), so that a reader finds the lines again. Document keys
come from the strings of a recording and computed keys from printed values, and both are UTF-8
(`Worker.hasUtf8_of_mem_run`). So each line is read back as the batch or the message that it was
printed from, with the very keys that were routed (`framing`).
-/

namespace IndexFeed

open Text (Bytes)

/-- The bytes that lines come to, each line with its line feed. -/
def transcript (stream : List (UInt16 × OutputLine)) : Bytes :=
  stream.flatMap fun (_, line) => line.print ++ [Recording.lineFeed]

/-- What a reader makes of the lines of a text. -/
def readLines (text : Bytes) : List (Option OutputLine) :=
  (Recording.lines text).map fun line => OutputLine.parse? line.dropLast

/-- An entry that an event gives rise to: the one of its message if it is a control event, or else
the one that routing it appends. -/
def Router.Causes (r : Router) (e : Event) (z : Entry) : Prop :=
  (∃ m, r.control e = some m ∧ z = m.entry) ∨
    r.control e = none ∧ ∃ keys d, r.plan? e (Buffer.fresh true) = some (keys, d) ∧
      z = r.entry (r.taken e) keys (r.resolve (r.taken e) keys d).decision

/-! ### Lines -/

theorem OutputLine.lineFeed_not_mem (line : OutputLine) : Recording.lineFeed ∉ line.print := by
  have hline : Json.OneLine line.print := Json.oneLine_print line.toJson
  exact hline.not_mem_of_lt (by decide)

/-- **The lines are found again**: each ends in its only line feed. -/
theorem lines_transcript (stream : List (UInt16 × OutputLine)) :
    Recording.lines (transcript stream) =
      stream.map fun (_, line) => line.print ++ [Recording.lineFeed] := by
  induction stream with
  | nil => rfl
  | cons x stream ih =>
    obtain ⟨p, line⟩ := x
    have hcons : transcript ((p, line) :: stream) =
        line.print ++ [Recording.lineFeed] ++ transcript stream := List.flatMap_cons
    rw [hcons, Recording.lines_append line.lineFeed_not_mem, ih, List.map_cons]

theorem readLines_transcript {stream : List (UInt16 × OutputLine)}
    (h : ∀ x ∈ stream, ∀ z ∈ x.2.entries, z.HasUtf8) :
    readLines (transcript stream) = stream.map fun (_, line) => some line := by
  rw [readLines, lines_transcript, List.map_map]
  refine List.map_congr_left fun x hx => ?_
  show OutputLine.parse? (x.2.print ++ [Recording.lineFeed]).dropLast = some x.2
  rw [List.dropLast_concat, OutputLine.parse?_print (h x hx)]

/-! ### Keys -/

/-- Every key that the transform answers with is UTF-8. -/
def Evaluator.EmitsUtf8 (ev : Evaluator) : Prop :=
  ∀ request b bytes, ev.verdict request b = .answered (some bytes) → IsUtf8 bytes

theorem Projection.emitsUtf8 (p : Projection) : p.evaluator.EmitsUtf8 := by
  intro request b bytes h
  rw [p.verdict_eq] at h
  split at h
  · next tuple _ =>
    injection h with hkey
    rw [EmittedTuple.encode] at hkey
    split at hkey
    · cases hkey
    · injection hkey with hbytes
      obtain ⟨s, hs⟩ := (Json.oneLine_print (.array (Emitted.itemsToJson tuple))).exists_encode
      rw [← hbytes, EmittedTuple.print, hs]
      exact isUtf8_encode s
  · cases h

theorem RecordedEvent.isUtf8_key {r : RecordedEvent} {e : Event} (h : r.toEvent = .ok e) :
    IsUtf8 e.key := by
  have hnone : IsUtf8 [] := isUtf8_encode ""
  unfold toEvent outline at h
  split at h
  case h_4 =>
    split at h
    · cases h
      exact hnone
    · cases h
  case h_5 =>
    cases h
    exact isUtf8_encode r.key
  all_goals
    cases h
    exact hnone

section Keys

variable {r : Router} (hr : r.evaluator.EmitsUtf8)

theorem isUtf8_of_askKey {ev : Evaluator} (hev : ev.EmitsUtf8) {e : Event} {body : Bytes}
    {q : Inquiry} {key : Option Bytes} (h : (askKey ev e body q).1 = .ok key) :
    ∀ bytes ∈ key, IsUtf8 bytes := by
  intro bytes hbytes
  obtain rfl : key = some bytes := hbytes
  unfold askKey at h
  split at h
  · cases h
  · simp only at h
    cases hverdict : ev.verdict ⟨e.key, body, e.metadata⟩ q.buffer with
    | answered key =>
      rw [hverdict] at h
      cases h
      exact hev _ _ _ hverdict
    | failed _ =>
      rw [hverdict] at h
      cases h
    | panicked _ =>
      rw [hverdict] at h
      cases h

theorem isUtf8_of_computeKeys {ev : Evaluator} (hev : ev.EmitsUtf8) {e : Event} {b : Option Buffer}
    {keys : Keys} (h : (computeKeys ev e b).1 = .ok keys) :
    ∀ key ∈ [keys.new, keys.old, keys.newPartition], ∀ bytes ∈ key, IsUtf8 bytes := by
  have hpartition := newPartition_of_computeKeys h
  have hboth : (∀ bytes ∈ keys.new, IsUtf8 bytes) ∧ ∀ bytes ∈ keys.old, IsUtf8 bytes := by
    unfold computeKeys at h
    split at h
    · cases h
    · next new q hnew =>
      split at h
      · cases h
      · next old q' hold =>
        cases h
        exact ⟨isUtf8_of_askKey hev (congrArg Prod.fst hnew),
          isUtf8_of_askKey hev (congrArg Prod.fst hold)⟩
  simp only [List.forall_mem_cons, hpartition]
  exact ⟨hboth.1, hboth.2, nofun, nofun⟩

/-- The keys of a command are among those that were computed, also if nobody takes an upsert. -/
theorem keys_command_subset {r : Router} {e : Event} {opcode : Opcode} {keys : Keys} {d : Decision}
    (h : classify opcode keys = some d) (instanceId : UInt64) :
    ((r.resolve e keys d).decision.command instanceId keys).keys ⊆
      [keys.new, keys.old, keys.newPartition] := by
  unfold classify at h
  split at h
  · split at h
    · cases h
      unfold Router.resolve
      simp only
      split <;> simp [Decision.fallback, Decision.command, Command.keys]
    · cases h
      simp [Router.resolve, Decision.command, Command.keys]
  · cases h
    simp [Router.resolve, Decision.command, Command.keys]
  · cases h
    simp [Router.resolve, Decision.command, Command.keys]
  · cases h

include hr in
/-- **An entry holds UTF-8** if the key of its document is UTF-8 and the transform emits no other
keys. -/
theorem Router.Causes.hasUtf8 {e : Event} {z : Entry} (h : r.Causes e z) (hkey : IsUtf8 e.key) :
    z.HasUtf8 := by
  rcases h with ⟨m, hm, rfl⟩ | ⟨-, keys, d, hplan, rfl⟩
  · unfold Router.control Lifecycle.ofEvent? at hm
    split at hm <;> cases hm <;> exact ⟨isUtf8_encode "", nofun⟩
  · unfold Router.plan? at hplan
    split at hplan
    · next keys' hkeys =>
      obtain ⟨d', hd, heq⟩ := Option.map_eq_some_iff.1 hplan
      cases heq
      refine ⟨?_, fun key hmem => ?_⟩
      · show IsUtf8 (r.taken e).key
        rw [Router.taken_key]
        exact hkey
      · exact isUtf8_of_computeKeys hr hkeys key (keys_command_subset hd _ hmem)
    · cases hplan

end Keys

/-! ### Lines of a worker -/

namespace Worker

variable {r : Router} (hr : r.evaluator.Oblivious)

include hr

/-- Each entry that a worker writes comes from one of its events. -/
theorem exists_causes_of_mem_run {every : Nat} {events : List Event} {line : OutputLine}
    (h : line ∈ (run r every events).lines) {z : Entry} (hz : z ∈ line.entries) :
    ∃ e ∈ events, r.Causes e z := by
  obtain ⟨hentries, hmessages⟩ := run_delivers hr every events
  -- entries of batches trace back by delivery, messages by the order of the controls
  cases line with
  | batch endpoint record =>
    have hmem : z ∈ entriesIn endpoint (run r every events).lines := by
      refine List.mem_flatMap.2 ⟨_, h, ?_⟩
      rw [OutputLine.entriesFor, if_pos rfl]
      exact hz
    rw [hentries, Router.entriesOf_routeAll hr, mem_entriesTo] at hmem
    obtain ⟨x, hx, -, rfl⟩ := hmem
    obtain ⟨e, he, hput⟩ := List.mem_flatMap.1 hx
    obtain ⟨he, hrouted⟩ := List.mem_filter.1 he
    refine ⟨e, he, .inr ⟨Option.isNone_iff_eq_none.1 hrouted, ?_⟩⟩
    unfold Router.puts Router.postings at hput
    cases hplan : r.plan? e (Buffer.fresh true) with
    | none =>
      rw [hplan] at hput
      cases hput
    | some plan =>
      obtain ⟨keys, d⟩ := plan
      rw [hplan] at hput
      obtain ⟨a, -, rfl⟩ := List.mem_map.1 hput
      exact ⟨keys, d, rfl, rfl⟩
  | lifecycle m =>
    obtain rfl : z = m.entry := List.mem_singleton.1 hz
    have hmem : m ∈ messagesIn (run r every events).lines := List.mem_filterMap.2 ⟨_, h, rfl⟩
    rw [hmessages] at hmem
    obtain ⟨e, he, hm⟩ := List.mem_filterMap.1 hmem
    exact ⟨e, he, .inl ⟨m, hm, rfl⟩⟩

end Worker

namespace Replay

/-- **Framing.** Take any settings, any recording and any order in which workers take turns. The
bytes that have gone out are lines that each end in their only line feed, one for each batch and
each message, and reading the lines gives back these batches and messages: endpoint, stamp, and
every entry with its numbers, its operation and the very bytes of its keys. For document keys and
computed keys are UTF-8, so that none is altered when it is written as a text. In the end, each
partition has all out that its worker writes, and this delivers its events. -/
theorem framing (s : ReplaySettings) (text : Bytes) (turns : List Turn) :
    let recording := Recording.ofText (some text)
    let replay := Underway.run s recording.events turns
    (∀ x ∈ replay.stream, Recording.lineFeed ∉ x.2.print) ∧
      Recording.lines (transcript replay.stream) =
        replay.stream.map (fun x => x.2.print ++ [Recording.lineFeed]) ∧
      readLines (transcript replay.stream) = replay.stream.map (fun x => some x.2) ∧
      (∀ x ∈ replay.stream, ∀ z ∈ x.2.entries,
        z.HasUtf8 ∧ ∃ e ∈ eventsOf x.1 recording.events, s.toRouter.Causes e z) ∧
      (replay.Complete recording.events → ∀ p,
        sentFor p replay.stream = written s recording p ∧
          Delivers s.toRouter (eventsOf p recording.events) (sentFor p replay.stream)) ∧
      ∃ more, (Underway.run s recording.events (turns ++ more)).Complete recording.events := by
  intro recording replay
  have hr : s.toRouter.evaluator.Oblivious := Projection.oblivious _
  have hcauses : ∀ x ∈ replay.stream, ∀ z ∈ x.2.entries,
      ∃ e ∈ eventsOf x.1 recording.events, s.toRouter.Causes e z := by
    intro x hx z hz
    have hsent : x.2 ∈ sentFor x.1 replay.stream :=
      List.mem_map_of_mem (List.mem_filter.2 ⟨hx, decide_eq_true rfl⟩)
    have hwritten := (Underway.sent_prefix s recording.events turns x.1).subset hsent
    exact Worker.exists_causes_of_mem_run hr hwritten hz
  -- keys are UTF-8 by their cause, so the printed texts can be read back
  have hutf8 : ∀ x ∈ replay.stream, ∀ z ∈ x.2.entries, z.HasUtf8 := by
    intro x hx z hz
    obtain ⟨e, he, hcause⟩ := hcauses x hx z hz
    obtain ⟨-, -, record, -, hevent⟩ :=
      Recording.exists_record_of_mem (List.mem_of_mem_filter he)
    exact hcause.hasUtf8 (Projection.emitsUtf8 _) (RecordedEvent.isUtf8_key hevent)
  refine ⟨fun x _ => x.2.lineFeed_not_mem, lines_transcript _, readLines_transcript hutf8,
    fun x hx z hz => ⟨hutf8 x hx z hz, hcauses x hx z hz⟩, fun hend p => ?_,
    Underway.exists_complete s recording.events turns⟩
  have hsent := Underway.sent_of_complete s recording.events turns hend p
  rw [hsent, written_eq]
  exact ⟨rfl, Worker.run_delivers hr _ _⟩

end Replay

end IndexFeed
