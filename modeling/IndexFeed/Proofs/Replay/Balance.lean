import IndexFeed.Proofs.Replay.Log
import IndexFeed.Proofs.Replay.Partitions
import IndexFeed.Proofs.Replay.RecordedKeys
import IndexFeed.Proofs.Routing.Accounting

/-!
# What the statistics of a replay say

The statistics of a worker balance with the events it was given, with what these came to, and with
the lines that it wrote (`Balanced`). What holds while a worker runs is that they would balance if
everything was written out now: an event that is announced or routed keeps this
(`Balanced.announce`, `Balanced.routeEvent`), and writing out changes nothing of it. What balances
may be added up (`Balanced.add`), and so the statistics of a replay balance as well
(`statistics_balance`).
-/

namespace IndexFeed

open Text (Bytes)

/-! ### What is counted -/

/-- The number of entries in records. -/
def entryTotal (records : List Record) : Nat := (records.map fun r => r.entries.length).sum

/-- The sum, over the events that were routed, of the numbers of their destinations. -/
def destinationTotal (log : List Handling) : Nat :=
  ((log.filter fun u => wasRouted u.result).map fun u => destinationsOf u.result).sum

/-- Statistics balance with the events that were read, with those of them that were routed or
skipped or failed, and with the lines that were written. -/
structure Balanced (events : List Event) (log : List Handling) (lines : List OutputLine)
    (stats : ReplayStats) : Prop where
  read : stats.events = events.length
  kinds : stats.events = stats.routed + stats.dropped + stats.failed + stats.lifecycle
  /-- What is logged are the events that are no control events. -/
  handled : (log.map (·.event)).Perm (events.filter fun e => !e.opcode.isControl)
  routed : stats.routed = log.countP fun u => wasRouted u.result
  dropped : stats.dropped = log.countP fun u => wasDropped u.result
  failed : stats.failed = log.countP fun u => !u.result.isOk
  lifecycle : stats.lifecycle = events.countP (·.opcode.isControl)
  messages : stats.lifecycle = (messagesIn lines).length
  batches : stats.batches = (recordsIn lines).length
  filled : ∀ record ∈ recordsIn lines, record.entries ≠ []
  /-- An event tells as many destinations as it added entries. -/
  told : ∀ u ∈ log, u.added = destinationsOf u.result
  entries : entryTotal (recordsIn lines) = destinationTotal log

section Totals

variable (records records' : List Record) (log log' : List Handling)

@[simp] theorem entryTotal_append :
    entryTotal (records ++ records') = entryTotal records + entryTotal records' := by
  simp [entryTotal]

@[simp] theorem destinationTotal_append :
    destinationTotal (log ++ log') = destinationTotal log + destinationTotal log' := by
  simp [destinationTotal]

theorem destinationTotal_singleton {u : Handling}
    (h : wasRouted u.result = false → destinationsOf u.result = 0) :
    destinationTotal [u] = destinationsOf u.result := by
  cases hrouted : wasRouted u.result with
  | true => simp [destinationTotal, hrouted]
  | false => simp [destinationTotal, hrouted, h hrouted]

end Totals

/-! ### What is held -/

namespace Accumulator

variable {acc : Accumulator}

theorem entryCount_eq_entryTotal : acc.entryCount = entryTotal (acc.records.map (·.2)) := by
  rw [entryCount_eq, count, entryTotal, List.map_map]
  simp only [List.countP_true]
  rfl

theorem entryCount_putAll (xs : List Posting) :
    (acc.putAll xs).entryCount = acc.entryCount + xs.length := by
  rw [entryCount_eq, entryCount_eq, count_putAll, List.countP_true]

/-- A record begins with an entry, and only gets more. -/
theorem entries_ne_nil_of_mem_put {x : Posting}
    (h : ∀ record ∈ acc.records.map (·.2), record.entries ≠ []) :
    ∀ record ∈ (acc.put x).records.map (·.2), record.entries ≠ [] := by
  obtain ⟨rs⟩ := acc
  unfold put upsert
  simp only at h ⊢
  induction rs with
  | nil => simp [insert]
  | cons ar rs ih =>
    obtain ⟨a, record⟩ := ar
    obtain ⟨hrecord, hrs⟩ := List.forall_mem_cons.1 h
    unfold insert
    split
    · refine List.forall_mem_cons.2 ⟨?_, hrs⟩
      simp
    · exact List.forall_mem_cons.2 ⟨hrecord, ih hrs⟩

theorem entries_ne_nil_of_mem_putAll {xs : List Posting}
    (h : ∀ record ∈ acc.records.map (·.2), record.entries ≠ []) :
    ∀ record ∈ (acc.putAll xs).records.map (·.2), record.entries ≠ [] := by
  induction xs generalizing acc with
  | nil => exact h
  | cons x xs ih => exact ih (entries_ne_nil_of_mem_put h)

end Accumulator

theorem Router.length_postings (r : Router) (e : Event) (b : Option Buffer) (acc : Accumulator) :
    (r.postings e b).length = destinationsOf (r.route e b acc).result := by
  simpa using (r.balances_route e b acc).destinations

/-! ### Adding up -/

namespace Balanced

variable {events events' : List Event} {log log' : List Handling} {lines lines' : List OutputLine}
  {stats stats' : ReplayStats}

theorem nil : Balanced [] [] [] {} := by
  constructor <;> simp [recordsIn, messagesIn, entryTotal, destinationTotal]

theorem add (h : Balanced events log lines stats) (h' : Balanced events' log' lines' stats') :
    Balanced (events ++ events') (log ++ log') (lines ++ lines') (stats.add stats') where
  read := by rw [List.length_append, ← h.read, ← h'.read]; rfl
  kinds := by
    have hkinds := h.kinds
    have hkinds' := h'.kinds
    simp only [ReplayStats.add]
    omega
  handled := by
    rw [List.map_append, List.filter_append]
    exact h.handled.append h'.handled
  routed := by rw [List.countP_append, ← h.routed, ← h'.routed]; rfl
  dropped := by rw [List.countP_append, ← h.dropped, ← h'.dropped]; rfl
  failed := by rw [List.countP_append, ← h.failed, ← h'.failed]; rfl
  lifecycle := by rw [List.countP_append, ← h.lifecycle, ← h'.lifecycle]; rfl
  messages := by rw [messagesIn_append, List.length_append, ← h.messages, ← h'.messages]; rfl
  batches := by rw [recordsIn_append, List.length_append, ← h.batches, ← h'.batches]; rfl
  filled := by
    rw [recordsIn_append, List.forall_mem_append]
    exact ⟨h.filled, h'.filled⟩
  told := List.forall_mem_append.2 ⟨h.told, h'.told⟩
  entries := by
    rw [recordsIn_append, entryTotal_append, destinationTotal_append, h.entries, h'.entries]

theorem perm (h : Balanced events log lines stats) (hperm : events.Perm events') :
    Balanced events' log lines stats where
  read := h.read.trans hperm.length_eq
  kinds := h.kinds
  handled := h.handled.trans (hperm.filter _)
  routed := h.routed
  dropped := h.dropped
  failed := h.failed
  lifecycle := h.lifecycle.trans (hperm.countP_eq _)
  messages := h.messages
  batches := h.batches
  filled := h.filled
  told := h.told
  entries := h.entries

theorem sum {ι : Type} {events : ι → List Event} {log : ι → List Handling}
    {lines : ι → List OutputLine} {stats : ι → ReplayStats} {ps : List ι}
    (h : ∀ p ∈ ps, Balanced (events p) (log p) (lines p) (stats p)) :
    Balanced (ps.flatMap events) (ps.flatMap log) (ps.flatMap lines) (.sum (ps.map stats)) := by
  induction ps with
  | nil => exact .nil
  | cons p ps ih =>
    obtain ⟨hp, hps⟩ := List.forall_mem_cons.1 h
    exact hp.add (ih hps)

end Balanced

/-! ### A worker -/

namespace Worker

/-- **What an event that is routed is counted as.** -/
theorem count_eq_add (stats : ReplayStats) (result : Except RouteError RouteOutcome) :
    count stats result = stats.add {
      events := 1
      routed := if wasRouted result then 1 else 0
      dropped := if wasDropped result then 1 else 0
      failed := if !result.isOk then 1 else 0 } := by
  cases result with
  | error e => rfl
  | ok outcome =>
    by_cases h : outcome.action = .dropped <;>
      simp [count, wasRouted, wasDropped, h, ReplayStats.add, Except.isOk, Except.toBool]

theorem stats_flush (w : Worker) : w.flush.stats =
    { w.stats with batches := w.stats.batches + w.accumulator.records.length } := rfl

theorem kinds_of_result (result : Except RouteError RouteOutcome) :
    (if wasRouted result then 1 else 0) + (if wasDropped result then 1 else 0) +
      (if !result.isOk then 1 else 0) = 1 := by
  cases result with
  | error e => rfl
  | ok outcome =>
    by_cases h : outcome.action = .dropped <;>
      simp [wasRouted, wasDropped, h, Except.isOk, Except.toBool]

end Worker

namespace Balanced

variable {r : Router} {every : Nat} {w : Worker} {events : List Event} {log : List Handling}

theorem announce (h : Balanced events log w.flush.lines w.flush.stats) {e : Event} {m : Lifecycle}
    (hm : r.control e = some m) :
    Balanced (events ++ [e]) log (w.announce m).lines (w.announce m).stats := by
  have hcontrol : e.opcode.isControl = true := by
    rw [← r.control_isSome, hm]
    rfl
  have hannounced : Balanced [e] [] [.lifecycle m] { events := 1, lifecycle := 1 } := by
    constructor <;> simp [hcontrol, entryTotal, destinationTotal]
  have hadd := h.add hannounced
  rw [List.append_nil] at hadd
  exact hadd

/-- **An event that is routed** is counted as what it comes to, and what it puts in would be written
out with what was held before. -/
theorem routeEvent (h : Balanced events log w.flush.lines w.flush.stats) {e : Event}
    (he : r.control e = none) :
    Balanced (events ++ [e]) (log ++ [w.handle r e]) (w.routeEvent r e).flush.lines
      (w.routeEvent r e).flush.stats := by
  let u := w.handle r e
  let held := w.accumulator.putAll (r.postings e (some w.buffer))
  have hcontrol : e.opcode.isControl = false := by
    rw [← r.control_isSome, he]
    rfl
  have hlength : (r.postings e (some w.buffer)).length = destinationsOf u.result :=
    r.length_postings e _ _
  have hadded : u.added = destinationsOf u.result := by
    have hout : u.out.accumulator = held := r.route_accumulator e _ _
    have hheld : u.held = w.accumulator := rfl
    rw [Handling.added, hout, hheld, Accumulator.entryCount_putAll, Nat.add_sub_cancel_left,
      hlength]
  have hmissed : wasRouted u.result = false → destinationsOf u.result = 0 := by
    intro hnot
    have hnone : r.postings e (some w.buffer) = [] := r.postings_eq_nil e _ _ hnot
    rw [← hlength, hnone, List.length_nil]
  -- what was written before is the same, but the batches of what is held are others
  have hbefore : recordsIn w.flush.lines =
      recordsIn w.lines ++ w.accumulator.records.map (·.2) := by
    rw [w.lines_flush, recordsIn_append, recordsIn_batches]
  have hafter : recordsIn (w.routeEvent r e).flush.lines =
      recordsIn w.lines ++ held.records.map (·.2) := by
    rw [Worker.lines_flush, recordsIn_append, recordsIn_batches, w.accumulator_routeEvent]
    rfl
  have hmessages : messagesIn (w.routeEvent r e).flush.lines = messagesIn w.flush.lines := by
    rw [Worker.lines_flush, Worker.lines_flush, messagesIn_append, messagesIn_append,
      messagesIn_batches, messagesIn_batches]
    rfl
  have hstats : (w.routeEvent r e).flush.stats =
      { events := w.stats.events + 1
        routed := w.stats.routed + if wasRouted u.result then 1 else 0
        dropped := w.stats.dropped + if wasDropped u.result then 1 else 0
        failed := w.stats.failed + if !u.result.isOk then 1 else 0
        lifecycle := w.stats.lifecycle
        batches := w.stats.batches + held.records.length } := by
    rw [Worker.stats_flush, w.accumulator_routeEvent]
    have hcount : (w.routeEvent r e).stats = Worker.count w.stats u.result := rfl
    rw [hcount, Worker.count_eq_add]
    rfl
  have hbatches := h.batches
  have hfilled := h.filled
  have hentries := h.entries
  rw [hbefore] at hbatches hfilled hentries
  obtain ⟨hwritten, hheld⟩ := List.forall_mem_append.1 hfilled
  constructor
  case read =>
    rw [hstats, List.length_append, ← h.read]
    rfl
  case kinds =>
    have hkinds : w.stats.events =
        w.stats.routed + w.stats.dropped + w.stats.failed + w.stats.lifecycle := h.kinds
    have hone := Worker.kinds_of_result u.result
    rw [hstats]
    dsimp only
    omega
  case handled =>
    have hlast : [e].filter (fun e => !e.opcode.isControl) = [e] := by simp [hcontrol]
    rw [List.map_append, List.filter_append, hlast]
    exact h.handled.append (.refl [e])
  case routed =>
    rw [hstats, List.countP_append, List.countP_singleton, ← h.routed]
    rfl
  case dropped =>
    rw [hstats, List.countP_append, List.countP_singleton, ← h.dropped]
    rfl
  case failed =>
    rw [hstats, List.countP_append, List.countP_singleton, ← h.failed]
    rfl
  case lifecycle =>
    rw [hstats, List.countP_append, List.countP_singleton, hcontrol, ← h.lifecycle]
    rfl
  case messages =>
    rw [hstats, hmessages, ← h.messages]
    rfl
  case batches =>
    rw [hstats, hafter, List.length_append, List.length_map]
    rw [Worker.stats_flush, List.length_append, List.length_map] at hbatches
    exact congrArg (· + held.records.length) (Nat.add_right_cancel hbatches)
  case filled =>
    rw [hafter]
    exact List.forall_mem_append.2 ⟨hwritten, Accumulator.entries_ne_nil_of_mem_putAll hheld⟩
  case told =>
    exact List.forall_mem_append.2 ⟨h.told, List.forall_mem_singleton.2 hadded⟩
  case entries =>
    rw [entryTotal_append, ← Accumulator.entryCount_eq_entryTotal] at hentries
    rw [hafter, entryTotal_append, ← Accumulator.entryCount_eq_entryTotal,
      Accumulator.entryCount_putAll, hlength, ← Nat.add_assoc, hentries, destinationTotal_append,
      destinationTotal_singleton hmissed]

end Balanced

namespace Worker

variable {r : Router} {every : Nat}

/-- **Each event keeps the balance.** If everything was written out now, it would balance. -/
theorem balanced_foldl (events : List Event) :
    Balanced events (log r every {} events) (events.foldl (step r every) {}).flush.lines
      (events.foldl (step r every) {}).flush.stats := by
  induction events using List.reverseRecOn with
  | nil => exact .nil
  | append_singleton events e ih =>
    rw [List.foldl_append, List.foldl_cons, List.foldl_nil, log_append_singleton]
    cases hm : r.control e with
    | some m =>
      rw [flush_step_of_control hm, logged_of_control hm, List.append_nil]
      exact ih.announce hm
    | none =>
      rw [flush_step_of_routed hm, logged_of_routed hm]
      exact ih.routeEvent hm

/-- **What a worker counts balances** with what it was given, did and wrote. -/
theorem balanced_run (events : List Event) :
    Balanced events (log r every {} events) (run r every events).lines (run r every events).stats :=
  balanced_foldl events

end Worker

/-! ### Replays -/

namespace Recording

/-- Whether a line is blank, but for its end. -/
def isBlank (line : Bytes) : Bool := Text.isBlankText (Text.decodeLossy (stripEnd line))

variable {text : Bytes} (h : (ofText (some text)).error = none)

include h

theorem length_events_ofText :
    (ofText (some text)).events.length = (lines text).countP fun line => !isBlank line := by
  rw [events_ofText h, List.length_filterMap_eq_countP, List.countP_map]
  refine List.countP_congr fun line hline => ?_
  obtain ⟨-, hcontent⟩ := (error_ofLines 1).1 h line hline
  have hevent : (eventOf? (stripEnd line)).isSome = !isBlank line := by
    unfold eventOf? isBlank
    rcases hcontent with hblank | ⟨e, he⟩
    · rw [if_pos hblank, hblank]
      rfl
    · rw [he]
      cases Text.isBlankText (Text.decodeLossy (stripEnd line)) <;> rfl
  rw [Function.comp_apply, hevent]

omit h in
/-- The lines of a partition have an event each. -/
theorem length_filterMap_linesOf (p : UInt16) (text : Bytes) :
    ((linesOf p text).filterMap eventOf?).length = (linesOf p text).length := by
  rw [List.length_filterMap_eq_countP, List.countP_eq_length]
  intro content hcontent
  obtain ⟨line, hline, rfl⟩ := List.mem_map.1 hcontent
  have hp : partitionOf? line = some p := of_decide_eq_true (List.mem_filter.1 hline).2
  obtain ⟨e, he, -⟩ := Option.map_eq_some_iff.1 hp
  rw [he, Option.isSome_some]

end Recording

theorem perm_partitionsOf (events : List Event) :
    ((partitionsOf events).flatMap fun p => eventsOf p events).Perm events := by
  refine List.perm_iff_count.2 fun e => ?_
  rw [List.count_flatMap]
  exact sum_countP_partitionsOf (· == e) events

namespace Replay

variable (s : ReplaySettings)

theorem flatMap_output_run (recording : Recording) :
    (run s recording {}).output.flatMap (·.2) =
      ((partitionsOf recording.events).flatMap (written s recording)).map OutputLine.print := by
  have hnonempty : ∀ output : List (UInt16 × List Bytes),
      (output.filter (!·.2.isEmpty)).flatMap (·.2) = output.flatMap (·.2) := by
    intro output
    rw [List.flatMap_def, List.flatMap_def, ← List.flatten_filter_not_isEmpty (L := output.map _),
      List.filter_map]
    rfl
  rw [output_run, hnonempty, List.flatMap_map, List.map_flatMap]
  simp only [written_eq]

/-- **The statistics of a replay balance.** Of a recording without a bad line, as many events are
counted as there are lines that are not blank, and each was routed, skipped, failed or announced.
The messages that were written are as many as were counted and as there were control events; the
batches are as many as were counted, none is empty, and all together hold one entry for each
destination of each event that was routed. The same holds of each partition on its own. -/
theorem statistics_balance (s : ReplaySettings) (text : Bytes)
    (h : (Recording.ofText (some text)).error = none) :
    let recording := Recording.ofText (some text)
    let partitions := partitionsOf recording.events
    let lines := partitions.flatMap (written s recording)
    ((run s recording {}).output.flatMap (·.2) = lines.map OutputLine.print ∧
      ∃ stats, (run s recording {}).stats = .ok stats ∧
        stats.events = ((Recording.lines text).countP fun line => !Recording.isBlank line) ∧
        Balanced recording.events (partitions.flatMap (log s recording)) lines stats) ∧
      ∀ p w, (p, w) ∈ workers s recording.events →
        (run s recording {}).linesOf p = w.lines.map OutputLine.print ∧
        w.stats.events = (Recording.linesOf p text).length ∧
        Balanced (eventsOf p recording.events) (log s recording p) w.lines w.stats := by
  intro recording partitions lines
  have hworker : ∀ p, Balanced (eventsOf p recording.events) (log s recording p)
      (workerOf s p recording.events).lines (workerOf s p recording.events).stats :=
    fun p => Worker.balanced_run _
  refine ⟨⟨flatMap_output_run s recording, _, stats_run s recording h, ?_⟩, fun p w hw => ?_⟩
  · have hwritten : written s recording = fun p => (workerOf s p recording.events).lines :=
      funext (written_eq s recording)
    have hall := (Balanced.sum fun p _ => hworker p).perm (perm_partitionsOf recording.events)
    rw [← hwritten] at hall
    exact ⟨hall.read.trans (Recording.length_events_ofText h), hall⟩
  · rw [workers_eq] at hw
    obtain ⟨q, -, heq⟩ := List.mem_map.1 hw
    cases heq
    refine ⟨linesOf_run s recording p, ?_, hworker p⟩
    rw [(hworker p).read, Recording.eventsOf_ofText h, Recording.length_filterMap_linesOf]

/-- A removal and two control events in two partitions, blank lines between them, and an event whose
opcode has no meaning. -/
def countedText : Bytes :=
  mixed ++ Text.encode "\n\t\n\x7b\"opcode\":\x7b\"other\":9\x7d,\"partition\":5\x7d\r\n"

theorem statistics_balance_mixed :
    let recording := Recording.ofText (some countedText)
    let removed (a : Address) : OutputLine :=
      .batch a ⟨⟨"orders", 3, 0⟩, [⟨0, [], 0, .deletion 7 none none⟩]⟩
    let announced (p : UInt16) (c : Command) : OutputLine :=
      .lifecycle ⟨⟨"orders", p, 0⟩, ⟨0, [], 0, c⟩⟩
    let lines := [removed "a", removed "b", announced 3 .sync, announced 5 .streamEnd]
    let stats : ReplayStats :=
      { events := 4, routed := 1, dropped := 1, lifecycle := 2, batches := 2 }
    recording.error = none ∧ (Recording.lines countedText).length = 7 ∧
      (run sampleSettings recording {}).output.flatMap (·.2) = lines.map OutputLine.print ∧
      (run sampleSettings recording {}).stats = .ok stats ∧
      ((workers sampleSettings recording.events).map fun (p, w) => (p, w.stats)) =
        [(3, { events := 2, routed := 1, lifecycle := 1, batches := 2 }),
          (5, { events := 2, dropped := 1, lifecycle := 1 })] ∧
      ∃ log, Balanced recording.events log lines stats ∧ destinationTotal log = 2 := by
  intro recording removed announced lines stats
  have hrecording : recording = ⟨[.ofDocument .deletion 3 [], .ofStream .streamEnd 5 0 0,
      .ofStream .sync 3 0 0, .ofDocument (.other 9) 5 []], none⟩ :=
    Recording.eq_of_read (by decide +kernel)
  have herror : recording.error = none := by rw [hrecording]
  have hlines :
      (partitionsOf recording.events).flatMap (written sampleSettings recording) = lines := by
    rw [hrecording]
    decide +kernel
  have hworkers : ((workers sampleSettings recording.events).map fun (p, w) => (p, w.stats)) =
      [(3, { events := 2, routed := 1, lifecycle := 1, batches := 2 }),
        (5, { events := 2, dropped := 1, lifecycle := 1 })] := by
    rw [hrecording]
    decide +kernel
  have hcounted : (run sampleSettings recording {}).stats.toOption = some stats := by
    rw [stats_run _ _ herror, hrecording]
    decide +kernel
  obtain ⟨⟨houtput, stats', hstats, -, hbalanced⟩, -⟩ :=
    statistics_balance sampleSettings countedText herror
  rw [hlines] at houtput hbalanced
  rw [hstats] at hcounted
  obtain rfl := Option.some.inj hcounted
  exact ⟨herror, by decide +kernel, houtput, hstats, hworkers, _, hbalanced,
    hbalanced.entries.symm⟩

end Replay

end IndexFeed
