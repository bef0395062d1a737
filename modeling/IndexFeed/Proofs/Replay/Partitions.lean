import IndexFeed.Proofs.Replay.RecordedLines
import IndexFeed.Proofs.Replay.Schedule
import Mathlib.Data.List.Sort

/-!
# Partitions on their own

What a replay comes to is a matter of what each partition has in the recording, and of nothing else:
not of the other partitions, nor of how the lines of partitions are mixed (`output_congr`,
`stats_congr`). So a partition can be replayed from a text of its own lines, and the statistics of
such replays add up to those of the whole (`partitions_independent`).
-/

namespace IndexFeed

open Text (Bytes)

namespace Recording

/-- The partition of the event that a line holds, if it holds one. -/
def partitionOf? (line : Bytes) : Option UInt16 := (eventOf? (stripEnd line)).map (·.partition)

/-- The text of a partition's lines alone. -/
def only (p : UInt16) (text : Bytes) : Bytes :=
  ((lines text).filter (partitionOf? · = some p)).flatten

/-- The lines of a partition in a text, without their ends. -/
def linesOf (p : UInt16) (text : Bytes) : List Bytes :=
  ((lines text).filter (partitionOf? · = some p)).map stripEnd

theorem linesOf_eq (p : UInt16) (text : Bytes) :
    linesOf p text =
      (((lines text).map fun line => (partitionOf? line, stripEnd line)).filter
        (·.1 = some p)).map (·.2) := by
  rw [List.filter_map, List.map_map]
  rfl

end Recording

/-! ### Events of a partition -/

theorem eventsOf_eventsOf (p q : UInt16) (events : List Event) :
    eventsOf q (eventsOf p events) = if q = p then eventsOf p events else [] := by
  unfold eventsOf
  rw [List.filter_filter]
  split
  · next h => simp [h]
  · next h =>
    rw [List.filter_eq_nil_iff]
    intro e _
    simpa using fun hq hp => h (hq.symm.trans hp)

theorem partitionsOf_congr {events events' : List Event}
    (h : ∀ p, eventsOf p events = eventsOf p events') :
    partitionsOf events = partitionsOf events' := by
  refine (pairwise_partitionsOf events).eq_of_mem_iff (pairwise_partitionsOf events') fun p => ?_
  rw [mem_partitionsOf, mem_partitionsOf, h p]

theorem partitionsOf_eventsOf (p : UInt16) (events : List Event) :
    partitionsOf (eventsOf p events) = (partitionsOf events).filter (· = p) := by
  refine (pairwise_partitionsOf _).eq_of_mem_iff ((pairwise_partitionsOf events).filter _)
    fun q => ?_
  rw [mem_partitionsOf, List.mem_filter, mem_partitionsOf, eventsOf_eventsOf]
  by_cases h : q = p <;> simp [h]

theorem filter_partitionsOf (p : UInt16) (events : List Event) :
    (partitionsOf events).filter (· = p) = if p ∈ partitionsOf events then [p] else [] := by
  split
  · next h =>
    refine ((pairwise_partitionsOf events).filter _).eq_of_mem_iff (List.pairwise_singleton _ p)
      fun q => ?_
    rw [List.mem_filter, List.mem_singleton, decide_eq_true_iff]
    exact ⟨And.right, fun hq => ⟨hq ▸ h, hq⟩⟩
  · next h =>
    rw [List.filter_eq_nil_iff]
    exact fun q hq heq => h (of_decide_eq_true heq ▸ hq)

/-! ### Lines of a partition -/

namespace Recording

variable {text : Bytes} (h : (ofText (some text)).error = none) (p : UInt16)

include h

theorem eventsOf_ofText :
    eventsOf p (ofText (some text)).events = (linesOf p text).filterMap eventOf? := by
  rw [events_ofText h, eventsOf, linesOf, List.filterMap_map, List.filterMap_map,
    List.filter_filterMap, List.filterMap_filter]
  refine List.filterMap_congr fun line _ => ?_
  cases hline : eventOf? (stripEnd line) with
  | none => simp [hline]
  | some e => by_cases hp : e.partition = p <;> simp [partitionOf?, hline, hp]

theorem error_only : (ofText (some (only p text))).error = none :=
  error_ofText_flatten_filter h _

theorem events_only :
    (ofText (some (only p text))).events = eventsOf p (ofText (some text)).events := by
  rw [events_ofText (error_only h p), only, lines_flatten_filter, eventsOf_ofText h, linesOf]

end Recording

/-! ### Replays -/

namespace Replay

variable (s : ReplaySettings)

theorem workerOf_eventsOf (p : UInt16) (events : List Event) :
    workerOf s p (eventsOf p events) = workerOf s p events := by
  rw [workerOf, eventsOf_eventsOf, if_pos rfl, workerOf]

/-- **What is written** does not depend on how the partitions are mixed. -/
theorem output_congr {recording recording' : Recording}
    (h : ∀ p, eventsOf p recording.events = eventsOf p recording'.events) :
    (run s recording {}).output = (run s recording' {}).output := by
  rw [output_run, output_run, partitionsOf_congr h]
  simp only [workerOf, h]

/-- **What is counted** does not depend on how the partitions are mixed. -/
theorem stats_congr {recording recording' : Recording} (hend : recording.error = none)
    (hend' : recording'.error = none)
    (h : ∀ p, eventsOf p recording.events = eventsOf p recording'.events) :
    (run s recording {}).stats = (run s recording' {}).stats := by
  rw [stats_run s recording hend, stats_run s recording' hend', partitionsOf_congr h]
  simp only [workerOf, h]

section Only

variable {text : Bytes} (h : (Recording.ofText (some text)).error = none) (p : UInt16)

include h

theorem output_only :
    (run s (.ofText (some (Recording.only p text))) {}).output =
      (run s (.ofText (some text)) {}).output.filter (·.1 = p) := by
  have htable : ∀ events : List Event,
      (((partitionsOf events).filter (· = p)).map fun q =>
        (q, (workerOf s q (eventsOf p events)).lines.map OutputLine.print)) =
      ((partitionsOf events).map fun q =>
        (q, (workerOf s q events).lines.map OutputLine.print)).filter (·.1 = p) := by
    intro events
    rw [List.filter_map]
    refine List.map_congr_left fun q hq => ?_
    have hqp : q = p := of_decide_eq_true (List.mem_filter.1 hq).2
    rw [hqp, workerOf_eventsOf]
  rw [output_run, output_run, Recording.events_only h, partitionsOf_eventsOf, htable]
  exact List.filter_comm ..

theorem stats_only :
    (run s (.ofText (some (Recording.only p text))) {}).stats =
      .ok (workerOf s p (Recording.ofText (some text)).events).stats := by
  rw [stats_run s _ (Recording.error_only h p), Recording.events_only h, partitionsOf_eventsOf,
    filter_partitionsOf]
  split
  · rw [List.map_singleton, workerOf_eventsOf]
    rfl
  · next hp =>
    rw [List.map_nil, workerOf, eventsOf_eq_nil hp]
    rfl

end Only

/-- **Partitions are independent.** In whatever order the workers take turns, it can come to an end,
and the lines that went out for a partition are then those of a replay of its own lines alone; the
statistics are the sums over such replays; and another recording in which each partition has the
same lines, however they are mixed and with blank lines anywhere, has the same outcome. -/
theorem partitions_independent (s : ReplaySettings) (text : Bytes)
    (h : (Recording.ofText (some text)).error = none) :
    let recording := Recording.ofText (some text)
    (∀ turns,
      ((Underway.run s recording.events turns).Complete recording.events → ∀ p,
        (sentFor p (Underway.run s recording.events turns).stream).map OutputLine.print =
          (run s recording {}).linesOf p) ∧
      ∃ more, (Underway.run s recording.events (turns ++ more)).Complete recording.events) ∧
      (∀ p, (Recording.ofText (some (Recording.only p text))).error = none ∧
        (run s (.ofText (some (Recording.only p text))) {}).output =
          (run s recording {}).output.filter (·.1 = p)) ∧
      (∃ stats : UInt16 → ReplayStats,
        (∀ p, (run s (.ofText (some (Recording.only p text))) {}).stats = .ok (stats p)) ∧
        (run s recording {}).stats = .ok (.sum ((partitionsOf recording.events).map stats))) ∧
      ∀ text', (Recording.ofText (some text')).error = none →
        (∀ p, Recording.linesOf p text' = Recording.linesOf p text) →
        (run s (.ofText (some text')) {}).output = (run s recording {}).output ∧
        (run s (.ofText (some text')) {}).stats = (run s recording {}).stats := by
  intro recording
  refine ⟨fun turns => ⟨fun hend p => ?_, Underway.exists_complete s recording.events turns⟩,
    fun p => ⟨Recording.error_only h p, output_only s h p⟩, ?_, fun text' h' hlines => ?_⟩
  · rw [linesOf_run, Underway.sent_of_complete s recording.events turns hend p]
  · exact ⟨fun p => (workerOf s p recording.events).stats, stats_only s h, stats_run s recording h⟩
  · have hevents : ∀ p, eventsOf p (Recording.ofText (some text')).events =
        eventsOf p recording.events := by
      intro p
      rw [Recording.eventsOf_ofText h', Recording.eventsOf_ofText h, hlines p]
    exact ⟨output_congr s hevents, stats_congr s h' h hevents⟩

/-- A removal in a partition. -/
def removalLine : String := "\x7b\"opcode\":\"deletion\",\"partition\":3\x7d"

/-- A control event of the same partition. -/
def syncLine : String := "\x7b\"opcode\":\"sync\",\"partition\":3\x7d"

/-- A control event of another partition. -/
def endLine : String := "\x7b\"opcode\":\"stream_end\",\"partition\":5\x7d"

/-- One partition after the other. -/
def apart : Bytes := Text.encode (removalLine ++ "\n" ++ syncLine ++ "\n" ++ endLine ++ "\n")

/-- The partitions mixed, with blank lines in between and other line ends. -/
def mixed : Bytes := Text.encode (" \n" ++ removalLine ++ "\r\n" ++ endLine ++ "\n\n" ++ syncLine)

theorem linesOf_mixed (p : UInt16) : Recording.linesOf p mixed = Recording.linesOf p apart := by
  have happart : (Recording.lines apart).map (fun line =>
      (Recording.partitionOf? line, Recording.stripEnd line)) =
        [(some 3, Text.encode removalLine), (some 3, Text.encode syncLine),
          (some 5, Text.encode endLine)] := by
    decide +kernel
  have hmixed : (Recording.lines mixed).map (fun line =>
      (Recording.partitionOf? line, Recording.stripEnd line)) =
        [(none, [32]), (some 3, Text.encode removalLine), (some 5, Text.encode endLine),
          (none, []), (some 3, Text.encode syncLine)] := by
    decide +kernel
  rw [Recording.linesOf_eq, Recording.linesOf_eq, happart, hmixed]
  by_cases h3 : 3 = p
  · have h5 : ¬ 5 = p := fun h5 => absurd (h3.trans h5.symm) (by decide)
    simp [h3, h5]
  · by_cases h5 : 5 = p <;> simp [h3, h5]

theorem partitions_independent_mixed :
    let s : ReplaySettings := {
      router := { definition := { source := "orders", instanceId := 7 } }
      topology := .ofAddresses ["a", "b"]
      keyFields := ["f"] }
    let removed (a : Address) : OutputLine :=
      .batch a ⟨⟨"orders", 3, 0⟩, [⟨0, [], 0, .deletion 7 none none⟩]⟩
    let announced (p : UInt16) (c : Command) : OutputLine :=
      .lifecycle ⟨⟨"orders", p, 0⟩, ⟨0, [], 0, c⟩⟩
    (Recording.ofText (some apart)).error = none ∧ (Recording.ofText (some mixed)).error = none ∧
      (run s (.ofText (some mixed)) {}).output = (run s (.ofText (some apart)) {}).output ∧
      (run s (.ofText (some mixed)) {}).output =
        [(3, [(removed "a").print, (removed "b").print, (announced 3 .sync).print]),
          (5, [(announced 5 .streamEnd).print])] ∧
      (run s (.ofText (some mixed)) {}).stats = (run s (.ofText (some apart)) {}).stats ∧
      (run s (.ofText (some mixed)) {}).stats =
        .ok { events := 3, routed := 1, lifecycle := 2, batches := 2 } := by
  intro s removed announced
  have hread : Recording.ofText (some mixed) = ⟨[.ofDocument .deletion 3 [],
      .ofStream .streamEnd 5 0 0, .ofStream .sync 3 0 0], none⟩ :=
    Recording.eq_of_read (by decide +kernel)
  have hmixed : (Recording.ofText (some mixed)).error = none := by rw [hread]
  have happart : (Recording.ofText (some apart)).error = none :=
    Option.isNone_iff_eq_none.1 (by decide +kernel)
  obtain ⟨-, -, -, hsame⟩ := partitions_independent s apart happart
  obtain ⟨houtput, hstats⟩ := hsame mixed hmixed linesOf_mixed
  refine ⟨happart, hmixed, houtput, ?_, hstats, ?_⟩
  · rw [hread]
    decide +kernel
  · rw [stats_run s _ hmixed, hread]
    exact congrArg Except.ok (by decide +kernel)

end Replay

end IndexFeed
