import IndexFeed.Proofs.Key.Buffers
import IndexFeed.Proofs.Replay.Dispatch
import IndexFeed.Proofs.Routing.Plan

/-!
# What a worker writes

Whenever a worker writes its batches out, each entry goes out once, in the order of the events, and
a lifecycle message comes after all entries of the events before it and ahead of all entries of the
events after it (`delivery`). The invariant is an account of what the worker has consumed: what it
has written and what it still holds make up what the events put in (`Worker.Accounts`).
-/

namespace IndexFeed

open Text (Bytes)

/-! ### Reading lines -/

namespace OutputLine

def partition : OutputLine → UInt16
  | batch _ record => record.stamp.partition
  | lifecycle message => message.stamp.partition

def entriesFor (a : Address) : OutputLine → List Entry
  | batch endpoint record => if endpoint = a then record.entries else []
  | lifecycle _ => []

def message? : OutputLine → Option Lifecycle
  | batch .. => none
  | lifecycle message => some message

end OutputLine

/-- The entries for the endpoint `a` in lines, one batch after the other. -/
def entriesIn (a : Address) (lines : List OutputLine) : List Entry :=
  lines.flatMap (OutputLine.entriesFor a)

def messagesIn (lines : List OutputLine) : List Lifecycle := lines.filterMap OutputLine.message?

/-- The counts that do not depend on when batches are written out. -/
def ReplayStats.besidesBatches (x : ReplayStats) : ReplayStats := { x with batches := 0 }

namespace Router

/-- Whether an event is routed, and not announced. -/
def isRouted (r : Router) (e : Event) : Bool := (r.control e).isNone

/-- Events routed one after another into one accumulator, each with the buffer as the one before it
left it. -/
def routeAll (r : Router) (events : List Event) : Accumulator × Buffer :=
  events.foldl
    (fun (acc, b) e =>
      let out := r.route e (some b) acc
      (out.accumulator, out.buffer.getD b))
    (.empty, .empty)

/-- What events put in, control events left out. -/
def putsOf (r : Router) (events : List Event) : List Posting :=
  (events.filter r.isRouted).flatMap fun e => r.puts e true

/-- The counts with one more event, but for batches. -/
def tally (r : Router) (x : ReplayStats) (e : Event) : ReplayStats :=
  match r.control e with
  | some _ => { x with events := x.events + 1, lifecycle := x.lifecycle + 1 }
  | none => Worker.count x (r.route e (Buffer.fresh true) .empty).result

end Router

/-- Lines deliver events: for each endpoint they hold, in order, the entries that routing the events
appends, and they hold the messages of the control events. -/
structure Delivers (r : Router) (events : List Event) (lines : List OutputLine) : Prop where
  entries : ∀ a, entriesIn a lines = (r.routeAll (events.filter r.isRouted)).1.entriesOf a
  messages : messagesIn lines = events.filterMap r.control

/-- The lines of a partition before they are printed. -/
def Replay.written (s : ReplaySettings) (recording : Recording) (p : UInt16) : List OutputLine :=
  ((workers s recording.events).lookup p).elim [] (·.lines)

/-- The account of a worker that began with `start`: it has consumed `events` since, `written` is
what it wrote and `pending` what it still has to write. -/
structure Worker.Accounts (r : Router) (start : List OutputLine) (events : List Event)
    (written : List OutputLine) (pending : List Posting) (w : Worker) : Prop where
  lines : w.lines = start ++ written
  accumulator : w.accumulator = Accumulator.empty.putAll pending
  entries : ∀ a, entriesIn a written ++ entriesTo a pending = entriesTo a (r.putsOf events)
  messages : messagesIn written = events.filterMap r.control
  writtenFor : ∀ line ∈ written, line.partition ∈ events.map (·.partition)
  pendingFor : ∀ x ∈ pending, x.stamp.partition ∈ events.map (·.partition)

section Lines

variable (a : Address) (xs ys : List OutputLine)

@[simp] theorem entriesIn_append : entriesIn a (xs ++ ys) = entriesIn a xs ++ entriesIn a ys :=
  List.flatMap_append

@[simp] theorem messagesIn_append : messagesIn (xs ++ ys) = messagesIn xs ++ messagesIn ys :=
  List.filterMap_append

@[simp] theorem entriesIn_lifecycle (m : Lifecycle) : entriesIn a [.lifecycle m] = [] := rfl

@[simp] theorem messagesIn_lifecycle (m : Lifecycle) : messagesIn [.lifecycle m] = [m] := rfl

theorem messagesIn_batches (rs : List (Address × Record)) :
    messagesIn (rs.map fun (a, r) => .batch a r) = [] := by
  simp [messagesIn, OutputLine.message?]

theorem entriesIn_grouped (xs : List Posting) :
    entriesIn a ((grouped xs).map fun (a, r) => .batch a r) = entriesTo a xs := by
  fun_induction grouped xs with
  | case1 => rfl
  | case2 x xs ih =>
    rw [List.map_cons, entriesIn, List.flatMap_cons, ← entriesIn, ih, entriesTo_cons]
    by_cases h : x.address = a
    · subst h
      simp [OutputLine.entriesFor]
    · simp [OutputLine.entriesFor, h, entriesTo_notTo (Ne.symm h)]

end Lines

/-! ### Routing one after another -/

theorem Projection.oblivious (p : Projection) : p.evaluator.Oblivious :=
  fun request b b' => p.transparent request (some b) (some b')

namespace Router

variable {r : Router} (hr : r.evaluator.Oblivious)

include hr

theorem route_puts (e : Event) (b : Buffer) (acc : Accumulator) :
    (r.route e (some b) acc).accumulator = acc.putAll (r.puts e true) := by
  rw [route_accumulator]
  exact congrArg acc.putAll (postings_congr hr e rfl)

/-- Events that are routed one after another put in what they put in on their own. -/
theorem routeAll_accumulator (events : List Event) :
    (r.routeAll events).1 = Accumulator.empty.putAll (events.flatMap fun e => r.puts e true) := by
  induction events using List.reverseRecOn with
  | nil => rfl
  | append_singleton events e ih =>
    have hlast : (r.routeAll (events ++ [e])).1 =
        (r.route e (some (r.routeAll events).2) (r.routeAll events).1).accumulator := by
      simp [routeAll, List.foldl_append]
    rw [hlast, route_puts hr, ih, List.flatMap_append, Accumulator.putAll_append,
      List.flatMap_singleton]

theorem entriesOf_routeAll (events : List Event) (a : Address) :
    (r.routeAll (events.filter r.isRouted)).1.entriesOf a = entriesTo a (r.putsOf events) := by
  rw [routeAll_accumulator hr, Accumulator.entriesOf_putAll, Accumulator.entriesOf_empty,
    List.nil_append, putsOf]

end Router

/-! ### The account of a worker -/

namespace Router

theorem entriesTo_putsOf (r : Router) (events : List Event) (a : Address) :
    entriesTo a (r.putsOf events) =
      (events.filter r.isRouted).flatMap fun e => entriesTo a (r.puts e true) := by
  rw [putsOf, entriesTo, List.filter_flatMap, List.map_flatMap]
  rfl

theorem putsOf_append_of_control {r : Router} {e : Event} {m : Lifecycle}
    (h : r.control e = some m) (events : List Event) :
    r.putsOf (events ++ [e]) = r.putsOf events := by
  simp [putsOf, isRouted, h]

theorem putsOf_append_of_routed {r : Router} {e : Event} (h : r.control e = none)
    (events : List Event) : r.putsOf (events ++ [e]) = r.putsOf events ++ r.puts e true := by
  simp [putsOf, isRouted, h]

theorem partition_of_control {r : Router} {e : Event} {m : Lifecycle} (h : r.control e = some m) :
    m.stamp.partition = e.partition := by
  unfold control Lifecycle.ofEvent? at h
  split at h <;> cases h <;> rfl

end Router

namespace Worker

variable {r : Router} {every : Nat} {start written : List OutputLine} {events : List Event}
  {pending : List Posting} {w : Worker}

theorem Accounts.begin (h : w.accumulator = .empty) : Accounts r w.lines [] [] [] w where
  lines := by simp
  accumulator := h
  entries a := by simp [entriesIn, Router.putsOf]
  messages := rfl
  writtenFor := by simp
  pendingFor := by simp

theorem lines_flush (w : Worker) :
    w.flush.lines = w.lines ++ w.accumulator.records.map fun (a, r) => .batch a r := rfl

/-- Writing batches out moves what is pending to what is written. -/
theorem Accounts.flush (h : Accounts r start events written pending w) :
    Accounts r start events (written ++ (grouped pending).map fun (a, r) => .batch a r) []
      w.flush where
  lines := by
    rw [lines_flush, h.lines, h.accumulator, Accumulator.records_putAll_empty, List.append_assoc]
  accumulator := rfl
  entries a := by
    rw [entriesIn_append, entriesIn_grouped, h.entries, entriesTo_nil, List.append_nil]
  messages := by
    rw [messagesIn_append, messagesIn_batches, h.messages, List.append_nil]
  writtenFor line hline := by
    rcases List.mem_append.1 hline with hline | hline
    · exact h.writtenFor line hline
    · obtain ⟨g, hg, rfl⟩ := List.mem_map.1 hline
      obtain ⟨x, hx, -, hstamp⟩ := posting_of_mem_grouped hg
      have hpartition : OutputLine.partition (.batch g.1 g.2) = x.stamp.partition :=
        (congrArg Stamp.partition hstamp).symm
      exact hpartition ▸ h.pendingFor x hx
  pendingFor := by simp

/-- A control event is announced after all that was routed before it. -/
theorem Accounts.announce (h : Accounts r start events written [] w.flush) {e : Event}
    {m : Lifecycle} (hm : r.control e = some m) :
    Accounts r start (events ++ [e]) (written ++ [.lifecycle m]) [] (w.announce m) where
  lines := by
    rw [← List.append_assoc, ← h.lines]
    rfl
  accumulator := rfl
  entries a := by
    rw [entriesIn_append, entriesIn_lifecycle, List.append_nil, h.entries,
      Router.putsOf_append_of_control hm]
  messages := by
    rw [messagesIn_append, messagesIn_lifecycle, h.messages, List.filterMap_append]
    simp [hm]
  writtenFor line hline := by
    rw [List.map_append]
    rcases List.mem_append.1 hline with hline | hline
    · exact List.mem_append_left _ (h.writtenFor line hline)
    · refine List.mem_append_right _ (List.mem_singleton.2 ?_)
      rw [List.mem_singleton.1 hline]
      exact Router.partition_of_control hm
  pendingFor := by simp

/-- Any other event adds what it puts in to what is pending, be it nothing. -/
theorem Accounts.routeEvent (hr : r.evaluator.Oblivious)
    (h : Accounts r start events written pending w) {e : Event} (he : r.control e = none) :
    Accounts r start (events ++ [e]) written (pending ++ r.puts e true) (w.routeEvent r e) where
  lines := h.lines
  accumulator := by
    rw [Accumulator.putAll_append, ← h.accumulator]
    exact Router.route_puts hr e w.buffer w.accumulator
  entries a := by
    rw [entriesTo_append, ← List.append_assoc, h.entries, Router.putsOf_append_of_routed he,
      entriesTo_append]
  messages := by
    rw [h.messages, List.filterMap_append]
    simp [he]
  writtenFor line hline := by
    rw [List.map_append]
    exact List.mem_append_left _ (h.writtenFor line hline)
  pendingFor x hx := by
    rw [List.map_append]
    rcases List.mem_append.1 hx with hx | hx
    · exact List.mem_append_left _ (h.pendingFor x hx)
    · obtain ⟨hstamp, -⟩ := r.of_mem_postings e _ hx
      exact List.mem_append_right _ (List.mem_singleton.2 (congrArg Stamp.partition hstamp))

/-- **Each event keeps the account**, whichever way it makes the worker write. -/
theorem Accounts.step (hr : r.evaluator.Oblivious) (h : Accounts r start events written pending w)
    (e : Event) :
    ∃ written' pending', Accounts r start (events ++ [e]) written' pending' (w.step r every e) := by
  unfold Worker.step
  split
  · next m hm => exact ⟨_, _, h.flush.announce hm⟩
  · next hm =>
    have hrouted := h.routeEvent hr hm
    unfold flushIfDue
    split
    · exact ⟨_, _, hrouted.flush⟩
    · exact ⟨_, _, hrouted⟩

/-- A run from a worker that holds nothing keeps the account. -/
theorem accounts_foldl (hr : r.evaluator.Oblivious) (every : Nat) (h : w.accumulator = .empty)
    (events : List Event) :
    ∃ written pending,
      Accounts r w.lines events written pending (events.foldl (Worker.step r every) w) := by
  induction events using List.reverseRecOn with
  | nil => exact ⟨[], [], .begin h⟩
  | append_singleton events e ih =>
    obtain ⟨written, pending, hacc⟩ := ih
    rw [List.foldl_append]
    exact hacc.step hr e

theorem accounts_run (hr : r.evaluator.Oblivious) (every : Nat) (h : w.accumulator = .empty)
    (events : List Event) :
    ∃ written,
      Accounts r w.lines events written [] (events.foldl (Worker.step r every) w).flush := by
  obtain ⟨written, pending, hacc⟩ := accounts_foldl hr every h events
  exact ⟨_, hacc.flush⟩

theorem Accounts.delivers (hr : r.evaluator.Oblivious)
    (h : Accounts r start events written [] w) : Delivers r events written where
  entries a := by
    rw [Router.entriesOf_routeAll hr, ← h.entries, entriesTo_nil, List.append_nil]
  messages := h.messages

/-- **A worker delivers its events.** -/
theorem run_delivers (hr : r.evaluator.Oblivious) (every : Nat) (events : List Event) :
    Delivers r events (run r every events).lines := by
  obtain ⟨written, hacc⟩ := accounts_run hr every (w := {}) rfl events
  have hlines : (run r every events).lines = written := hacc.lines
  rw [hlines]
  exact hacc.delivers hr

theorem partition_of_mem_run (hr : r.evaluator.Oblivious) {line : OutputLine}
    (h : line ∈ (run r every events).lines) : line.partition ∈ events.map (·.partition) := by
  obtain ⟨written, hacc⟩ := accounts_run hr every (w := {}) rfl events
  have hlines : (run r every events).lines = written := hacc.lines
  exact hacc.writtenFor line (hlines ▸ h)

/-- **A control event is a barrier:** what is written before its message delivers the events before
it, and what is written after its message those after it. -/
theorem run_barrier (hr : r.evaluator.Oblivious) (every : Nat) (before after : List Event)
    {c : Event} {m : Lifecycle} (hm : r.control c = some m) :
    ∃ earlier later, (run r every (before ++ c :: after)).lines = earlier ++ .lifecycle m :: later ∧
      Delivers r before earlier ∧ Delivers r after later := by
  obtain ⟨earlier, hbefore⟩ := accounts_run hr every (w := {}) rfl before
  have hstep : ∀ w : Worker, Worker.step r every w c = w.announce m := by
    intro w
    rw [Worker.step, hm]
  -- after the message the worker holds nothing, and begins a new account
  let w := (before.foldl (Worker.step r every) {}).announce m
  obtain ⟨later, hafter⟩ := accounts_run hr every (w := w) rfl after
  have hrun : run r every (before ++ c :: after) = (after.foldl (Worker.step r every) w).flush := by
    rw [run, List.foldl_append, List.foldl_cons, hstep]
  have hw : w.lines = earlier ++ [.lifecycle m] := congrArg (· ++ _) hbefore.lines
  refine ⟨earlier, later, ?_, hbefore.delivers hr, hafter.delivers hr⟩
  rw [hrun, hafter.lines, hw, List.append_assoc, List.singleton_append]

/-! ### Counts -/

theorem besidesBatches_count (x : ReplayStats) (result : Except RouteError RouteOutcome) :
    (count x result).besidesBatches = count x.besidesBatches result := by
  cases result with
  | error _ => rfl
  | ok outcome =>
    by_cases h : outcome.action = .dropped <;> simp [count, h, ReplayStats.besidesBatches]

theorem besidesBatches_flushIfDue (every : Nat) (w : Worker) :
    (w.flushIfDue every).stats.besidesBatches = w.stats.besidesBatches := by
  unfold flushIfDue
  split <;> rfl

/-- What an event adds to the counts does not depend on what the worker has done. -/
theorem besidesBatches_step (hr : r.evaluator.Oblivious) (every : Nat) (w : Worker) (e : Event) :
    (w.step r every e).stats.besidesBatches = r.tally w.stats.besidesBatches e := by
  unfold Worker.step Router.tally
  cases r.control e with
  | some m => rfl
  | none =>
    have hoffer : (some w.buffer).isSome = (Buffer.fresh true).isSome := rfl
    have hresult : (r.route e (some w.buffer) w.accumulator).result =
        (r.route e (Buffer.fresh true) .empty).result :=
      Router.route_result_congr hr e hoffer _ _
    rw [besidesBatches_flushIfDue, ← hresult]
    exact besidesBatches_count ..

theorem besidesBatches_run (hr : r.evaluator.Oblivious) (every : Nat) (events : List Event) :
    (run r every events).stats.besidesBatches = events.foldl r.tally {} := by
  have hfold : (events.foldl (Worker.step r every) {}).stats.besidesBatches =
      events.foldl r.tally {} := by
    induction events using List.reverseRecOn with
    | nil => rfl
    | append_singleton events e ih =>
      rw [List.foldl_append, List.foldl_append, ← ih]
      exact besidesBatches_step hr every _ e
  exact hfold

end Worker

theorem ReplayStats.besidesBatches_sum (xs : List ReplayStats) :
    (sum xs).besidesBatches = sum (xs.map besidesBatches) := by
  induction xs with
  | nil => rfl
  | cons x xs ih =>
    have hcons : sum ((x :: xs).map besidesBatches) =
        x.besidesBatches.add (sum (xs.map besidesBatches)) := rfl
    rw [hcons, ← ih]
    rfl

/-! ### Replays -/

namespace Replay

variable (s : ReplaySettings) (recording : Recording) (p : UInt16)

theorem written_eq : written s recording p = (workerOf s p recording.events).lines := by
  rw [written, workers_eq, lookup_labelled]
  split
  · rfl
  · next hp => exact (workerOf_of_not_mem hp).symm

variable {recording}

/-- The counts of replays that differ in when batches are written out differ in batches only. -/
theorem stats_withFlushEvery (h : recording.error = none) (n : UInt64) :
    ∃ stats stats', (run s recording {}).stats = .ok stats ∧
      (run { s with flushEvery := n } recording {}).stats = .ok stats' ∧
      stats.besidesBatches = stats'.besidesBatches := by
  refine ⟨_, _, stats_run s recording h, stats_run _ recording h, ?_⟩
  rw [ReplayStats.besidesBatches_sum, ReplayStats.besidesBatches_sum, List.map_map, List.map_map]
  refine congrArg ReplayStats.sum (List.map_congr_left fun p _ => ?_)
  exact (Worker.besidesBatches_run (Projection.oblivious _) _ _).trans
    (Worker.besidesBatches_run (r := s.toRouter) (Projection.oblivious _) _ _).symm

/-- **Delivery.** Of a recording without a bad line, the lines of a partition deliver its events:
each entry once and in order, and each lifecycle message. The entries of an event are its own:
whatever came before it, routing it appends them, and the lines hold them one event after the other.
A control event is a barrier, for what is ahead of its message delivers the events before it, and
what follows those after it. How often batches are written out makes no difference to this, nor to
any count but that of the batches. -/
theorem delivery (s : ReplaySettings) (text : Bytes)
    (h : (Recording.ofText (some text)).error = none) (p : UInt16) :
    let recording := Recording.ofText (some text)
    let events := eventsOf p recording.events
    let lines := written s recording p
    (run s recording {}).linesOf p = lines.map OutputLine.print ∧
      (∀ line ∈ lines, line.partition = p) ∧
      Delivers s.toRouter events lines ∧
      (∀ e b acc a, (s.toRouter.route e (some b) acc).accumulator.entriesOf a =
        acc.entriesOf a ++ entriesTo a (s.toRouter.puts e true)) ∧
      (∀ a, entriesIn a lines =
        (events.filter s.toRouter.isRouted).flatMap fun e => entriesTo a (s.toRouter.puts e true)) ∧
      (∀ before c after m, events = before ++ c :: after → s.toRouter.control c = some m →
        ∃ earlier later, lines = earlier ++ .lifecycle m :: later ∧
          Delivers s.toRouter before earlier ∧ Delivers s.toRouter after later) ∧
      ∀ n : UInt64,
        (∀ a, entriesIn a (written { s with flushEvery := n } recording p) = entriesIn a lines) ∧
        messagesIn (written { s with flushEvery := n } recording p) = messagesIn lines ∧
        ∃ stats stats', (run s recording {}).stats = .ok stats ∧
          (run { s with flushEvery := n } recording {}).stats = .ok stats' ∧
          stats.besidesBatches = stats'.besidesBatches := by
  intro recording events lines
  have hr : ∀ s : ReplaySettings, s.toRouter.evaluator.Oblivious := fun s => Projection.oblivious _
  have hlines : lines = (Worker.run s.toRouter s.flushEvery.toNat events).lines :=
    written_eq s recording p
  have hdelivers : ∀ s : ReplaySettings, Delivers s.toRouter events (written s recording p) := by
    intro s
    rw [written_eq]
    exact Worker.run_delivers (hr s) _ _
  refine ⟨?_, fun line hline => ?_, hdelivers s, fun e b acc a => ?_, fun a => ?_,
    fun before c after m hsplit hm => ?_, fun n => ?_⟩
  · rw [hlines]
    exact linesOf_run s recording p
  · rw [hlines] at hline
    obtain ⟨e, he, hp⟩ := List.mem_map.1 (Worker.partition_of_mem_run (hr s) hline)
    exact hp.symm.trans (of_decide_eq_true (List.mem_filter.1 he).2)
  · rw [Router.route_puts (hr s), Accumulator.entriesOf_putAll]
  · rw [(hdelivers s).entries, Router.entriesOf_routeAll (hr s), Router.entriesTo_putsOf]
  · rw [hlines, hsplit]
    exact Worker.run_barrier (hr s) _ before after hm
  · -- the router is the same, and the account of the events is kept for either
    have hother := hdelivers { s with flushEvery := n }
    exact ⟨fun a => (hother.entries a).trans ((hdelivers s).entries a).symm,
      hother.messages.trans (hdelivers s).messages.symm, stats_withFlushEvery s h n⟩

/-- Two endpoints, and batches that are written out every second event. -/
def sampleSettings : ReplaySettings where
  router := { definition := { source := "orders", instanceId := 7 } }
  topology := .ofAddresses ["a", "b"]
  keyFields := ["f"]
  flushEvery := 2

/-- Two versions of a document, a control event and the removal of the document. -/
def sampleText : Bytes := Text.encode
  ("\x7b\"opcode\":\"mutation\",\"partition\":3,\"seqno\":1,\"value\":\x7b\"f\":1\x7d\x7d\n" ++
    "\x7b\"opcode\":\"mutation\",\"partition\":3,\"seqno\":2,\"value\":\x7b\"f\":2\x7d\x7d\n" ++
    "\x7b\"opcode\":\"sync\",\"partition\":3\x7d\n" ++
    "\x7b\"opcode\":\"deletion\",\"partition\":3,\"seqno\":3\x7d\n")

theorem delivery_sample :
    let version (seqno : UInt64) (value : String) : Event :=
      { Event.mutation 3 [] (Text.encode value) with datatype := .json, seqno }
    let sync := Event.ofStream .sync 3 0 0
    let removal := { Event.ofDocument .deletion 3 [] with seqno := 3 }
    let before := [version 1 "\x7b\"f\":1\x7d", version 2 "\x7b\"f\":2\x7d"]
    let stamp : Stamp := ⟨"orders", 3, 0⟩
    let told (seqno : UInt64) (key : String) : Entry :=
      ⟨seqno, [], 0, .upsert 7 (some (Text.encode key)) none none⟩
    let removed : Entry := ⟨3, [], 0, .deletion 7 none none⟩
    let earlier : List OutputLine := [.batch "b" ⟨stamp, [told 1 "[1]", told 2 "[2]"]⟩]
    let later : List OutputLine := [.batch "a" ⟨stamp, [removed]⟩, .batch "b" ⟨stamp, [removed]⟩]
    let recording := Recording.ofText (some sampleText)
    let often : ReplaySettings := { sampleSettings with flushEvery := 1 }
    recording.error = none ∧ eventsOf 3 recording.events = before ++ sync :: [removal] ∧
      (run sampleSettings recording {}).linesOf 3 =
        (earlier ++ .lifecycle ⟨stamp, ⟨0, [], 0, .sync⟩⟩ :: later).map OutputLine.print ∧
      Delivers sampleSettings.toRouter before earlier ∧
      Delivers sampleSettings.toRouter [removal] later ∧
      entriesIn "b" (written often recording 3) = [told 1 "[1]", told 2 "[2]", removed] ∧
      (run sampleSettings recording {}).stats =
        .ok { events := 4, routed := 3, lifecycle := 1, batches := 3 } ∧
      ∃ stats, (run often recording {}).stats = .ok stats ∧ stats.batches = 4 ∧
        stats.besidesBatches = { events := 4, routed := 3, lifecycle := 1 } := by
  intro version sync removal before stamp told removed earlier later recording often
  -- the text is read once, and what follows is evaluated on its events
  have hrecording : recording = ⟨before ++ sync :: [removal], none⟩ :=
    Recording.eq_of_read (by decide +kernel)
  have herror : recording.error = none := by rw [hrecording]
  have hevents : eventsOf 3 recording.events = before ++ sync :: [removal] := by
    rw [hrecording]
    decide +kernel
  have hwritten : written sampleSettings recording 3 =
      earlier ++ .lifecycle ⟨stamp, ⟨0, [], 0, .sync⟩⟩ :: later := by
    rw [hrecording]
    decide +kernel
  have hcounted : ((run sampleSettings recording {}).stats.toOption,
      (run often recording {}).stats.toOption.map (·.batches)) =
        (some { events := 4, routed := 3, lifecycle := 1, batches := 3 }, some 4) := by
    rw [stats_run _ _ herror, stats_run _ _ herror, hrecording]
    decide +kernel
  obtain ⟨hlines, -, -, -, -, hbarrier, hevery⟩ := delivery sampleSettings sampleText herror 3
  obtain ⟨hentries, -, stats, stats', hstats, hstats', hsame⟩ := hevery 1
  obtain ⟨earlier', later', hsplit, hbefore, hafter⟩ := hbarrier before sync [removal] _ hevents rfl
  -- the message stands once in the lines, so that they are cut there
  obtain ⟨rfl, -, rfl⟩ := (List.append_cons_inj_of_notMem (by decide +kernel) (by decide +kernel)).1
    (hwritten.symm.trans hsplit)
  rw [hstats, hstats'] at hcounted
  obtain ⟨hcount, hbatches⟩ := Prod.mk.inj hcounted
  obtain rfl := Option.some.inj hcount
  refine ⟨herror, hevents, by rw [hlines, hwritten], hbefore, hafter, ?_, hstats, stats', hstats',
    Option.some.inj hbatches, hsame.symm⟩
  rw [hentries, hwritten]
  decide +kernel

end Replay

end IndexFeed
