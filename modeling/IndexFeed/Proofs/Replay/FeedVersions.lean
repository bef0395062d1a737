import IndexFeed.Proofs.Key.Buffers
import IndexFeed.Proofs.Replay.Schedule
import IndexFeed.Proofs.Routing.Plan

/-!
# Feed versions and buffers

A feed version decides whether transforms are offered a buffer. A key written through a buffer is
the key written without one, so that two workers under different versions agree in all but what
their buffers hold (`Worker.besidesBuffer_run`), and no replay can tell the versions apart
(`feed_versions_agree`).
-/

namespace IndexFeed

open Text (Bytes)

/-! ### Keys of an event -/

theorem computeKeys_transparent {ev : Evaluator} (hev : ev.Transparent) (e : Event)
    (b b' : Option Buffer) : (computeKeys ev e b).1 = (computeKeys ev e b').1 := by
  refine computeKeys_congr_of (P := fun _ _ => True) (fun body q q' _ => ⟨?_, trivial⟩) trivial
  unfold askKey
  split
  · rfl
  · exact congrArg Verdict.key (hev _ _ _)

/-! ### Routing under another version -/

def Router.withFeedVersion (r : Router) (v : FeedVersion) : Router :=
  { r with settings := { r.settings with feedVersion := v } }

section Versions

variable {r : Router} (hr : r.evaluator.Transparent) (v : FeedVersion)

namespace Router

variable (e : Event) (b b' : Option Buffer)

include hr

theorem keysOf_withFeedVersion :
    ((r.withFeedVersion v).keysOf e b).1 = (r.keysOf e b').1 :=
  computeKeys_transparent hr (r.taken e) _ _

theorem result_withFeedVersion (acc acc' : Accumulator) :
    ((r.withFeedVersion v).route e b acc).result = (r.route e b' acc').result := by
  have hkeys := keysOf_withFeedVersion hr v e b b'
  rw [route_eq, route_eq]
  -- The version is read for the keys only, so that all else is the router's own.
  change (if (r.opcodeOf e).isData then r.conclude (r.taken e) (r.opcodeOf e) b acc
    ((r.withFeedVersion v).keysOf e b) else _).result = _
  split
  · exact r.result_conclude (r.taken e) (r.opcodeOf e) hkeys
  · rfl

theorem postings_withFeedVersion :
    (r.withFeedVersion v).postings e b = r.postings e b' := by
  have hkeys := keysOf_withFeedVersion hr v e b b'
  have hplan : (r.withFeedVersion v).plan? e b = r.plan? e b' := by
    rw [plan?, plan?, hkeys]
    rfl
  rw [postings, postings, hplan]
  rfl

end Router

namespace Worker

/-- A worker but for what its buffer holds. -/
def besidesBuffer (w : Worker) : Worker := { w with buffer := .empty }

variable {w w' : Worker}

theorem besidesBuffer_flush (h : w.besidesBuffer = w'.besidesBuffer) :
    w.flush.besidesBuffer = w'.flush.besidesBuffer :=
  congrArg flush h

theorem besidesBuffer_flushIfDue (every : Nat) (h : w.besidesBuffer = w'.besidesBuffer) :
    (w.flushIfDue every).besidesBuffer = (w'.flushIfDue every).besidesBuffer := by
  have hpending : w.pending = w'.pending := (congrArg pending h :)
  unfold flushIfDue
  rw [hpending]
  split
  · exact besidesBuffer_flush h
  · exact h

include hr

theorem besidesBuffer_routeEvent (e : Event) (h : w.besidesBuffer = w'.besidesBuffer) :
    (w.routeEvent (r.withFeedVersion v) e).besidesBuffer =
      (w'.routeEvent r e).besidesBuffer := by
  have haccumulator : w.accumulator = w'.accumulator := (congrArg accumulator h :)
  have hresult := Router.result_withFeedVersion hr v e (some w.buffer) (some w'.buffer)
    w.accumulator w'.accumulator
  have hrouted : ((r.withFeedVersion v).route e (some w.buffer) w.accumulator).accumulator =
      (r.route e (some w'.buffer) w'.accumulator).accumulator := by
    rw [Router.route_accumulator, Router.route_accumulator, haccumulator,
      Router.postings_withFeedVersion hr v e (some w.buffer) (some w'.buffer)]
  obtain ⟨acc, b, pending, stats, lines, warnings⟩ := w
  obtain ⟨acc', b', pending', stats', lines', warnings'⟩ := w'
  cases h
  simp only [besidesBuffer, routeEvent, hresult, hrouted]
  rfl

theorem besidesBuffer_step (every : Nat) (e : Event) (h : w.besidesBuffer = w'.besidesBuffer) :
    (w.step (r.withFeedVersion v) every e).besidesBuffer = (w'.step r every e).besidesBuffer := by
  have hcontrol : (r.withFeedVersion v).control e = r.control e := rfl
  unfold step
  rw [hcontrol]
  cases r.control e with
  | some message => exact congrArg (announce · message) h
  | none => exact besidesBuffer_flushIfDue every (besidesBuffer_routeEvent hr v e h)

/-- **A worker does the same under every version**, but for what it leaves in its buffer. -/
theorem besidesBuffer_run (every : Nat) (events : List Event) :
    (run (r.withFeedVersion v) every events).besidesBuffer =
      (run r every events).besidesBuffer := by
  have hfold : (events.foldl (step (r.withFeedVersion v) every) {}).besidesBuffer =
      (events.foldl (step r every) {}).besidesBuffer := by
    induction events using List.reverseRecOn with
    | nil => rfl
    | append_singleton events e ih =>
      rw [List.foldl_append, List.foldl_append]
      exact besidesBuffer_step hr v every e ih
  exact besidesBuffer_flush hfold

end Worker

end Versions

/-! ### Replays -/

def ReplaySettings.withFeedVersion (s : ReplaySettings) (v : FeedVersion) : ReplaySettings :=
  { s with router := { s.router with feedVersion := v } }

namespace Replay

variable (s : ReplaySettings) (v : FeedVersion)

theorem besidesBuffer_workerOf (p : UInt16) (events : List Event) :
    (workerOf (s.withFeedVersion v) p events).besidesBuffer =
      (workerOf s p events).besidesBuffer :=
  Worker.besidesBuffer_run (r := s.toRouter) (Projection.transparent _) v _ _

theorem run_congr_besidesBuffer {s s' : ReplaySettings} (htopology : s.topology = s'.topology)
    (recording : Recording) (h : ∀ p, (workerOf s p recording.events).besidesBuffer =
      (workerOf s' p recording.events).besidesBuffer) (sink : Sink) :
    run s recording sink = run s' recording sink := by
  have hlines : ∀ p, (workerOf s p recording.events).lines =
      (workerOf s' p recording.events).lines := fun p => (congrArg Worker.lines (h p) :)
  have hstats : ∀ p, (workerOf s p recording.events).stats =
      (workerOf s' p recording.events).stats := fun p => (congrArg Worker.stats (h p) :)
  have hwarnings : ∀ p, (workerOf s p recording.events).warnings =
      (workerOf s' p recording.events).warnings := fun p => (congrArg Worker.warnings (h p) :)
  simp only [run, deliver, workers_eq, List.flatMap_map, List.map_map, Function.comp_def, hlines,
    hstats, hwarnings, htopology]

/-- **Feed versions cannot be told apart.** Tuples that are encoded through one buffer, whatever it
held, have the keys that they have without one; each leaves the buffer empty, or leaves it alone if
it is empty itself. So a replay comes to the same under every version: it writes the same lines,
counts the same and fails for the same reason, and warns of the same, also if its workers take
turns, in whatever order they do so under either version. -/
theorem feed_versions_agree :
    (∀ (buffer : Buffer) (tuples : List EmittedTuple),
      (EmittedTuple.encodeAll buffer tuples).map (·.1) = tuples.map EmittedTuple.encode ∧
        buffer :: (EmittedTuple.encodeAll buffer tuples).map (·.2) =
          tuples.scanl (fun b tuple => if tuple.isEmpty then b else .empty) buffer) ∧
      ∀ (s : ReplaySettings) (v : FeedVersion) (text : Option Bytes),
        (∀ sink, run (s.withFeedVersion v) (.ofText text) sink = run s (.ofText text) sink) ∧
          ∀ turns turns',
            let events := (Recording.ofText text).events
            let here := Underway.run (s.withFeedVersion v) events turns
            let there := Underway.run s events turns'
            here.Complete events → there.Complete events →
              ∀ p, sentFor p here.stream = sentFor p there.stream := by
  refine ⟨fun buffer tuples => ⟨?_, ?_⟩, fun s v text => ⟨fun sink => ?_, ?_⟩⟩
  · exact EmittedTuple.encodeAll_keys buffer tuples
  · exact EmittedTuple.encodeAll_buffers buffer tuples
  · have htopology : (s.withFeedVersion v).topology = s.topology := rfl
    exact run_congr_besidesBuffer htopology _ (fun p => besidesBuffer_workerOf s v p _) sink
  · intro turns turns' events here there hhere hthere p
    rw [Underway.sent_of_complete _ _ _ hhere, Underway.sent_of_complete _ _ _ hthere]
    exact (congrArg Worker.lines (besidesBuffer_workerOf s v p events) :)

/-- A change in one partition and a removal in another. -/
def changesText : Text.Bytes := Text.encode
  ("\x7b\"opcode\":\"mutation\",\"partition\":3,\"value\":\x7b\"f\":1\x7d\x7d\n" ++
    "\x7b\"opcode\":\"deletion\",\"partition\":5\x7d\n")

/-- Under one version the change is worked on first, under the other the removal. -/
theorem feed_versions_agree_changes :
    let s : ReplaySettings := {
      router := { definition := { source := "orders", instanceId := 7 } }
      topology := .ofAddresses ["a"]
      keyFields := ["f"] }
    let change := { Event.mutation 3 [] (Text.encode "\x7b\"f\":1\x7d") with datatype := .json }
    let events := (Recording.ofText (some changesText)).events
    events = [change, .ofDocument .deletion 5 []] ∧ ∃ more more',
      let here := Underway.run (s.withFeedVersion .sherlock) events ([.read, .work 3] ++ more)
      let there := Underway.run s events ([.read, .read, .work 5] ++ more')
      here.Complete events ∧ there.Complete events ∧
        (∀ p, sentFor p here.stream = sentFor p there.stream) ∧
        sentFor 3 here.stream = [.batch "a" ⟨⟨"orders", 3, 0⟩,
          [⟨0, [], 0, .upsert 7 (some (Text.encode "[1]")) none none⟩]⟩] := by
  intro s change events
  have hevents : events = [change, .ofDocument .deletion 5 []] := by decide +kernel
  obtain ⟨more, hhere⟩ :=
    Underway.exists_complete (s.withFeedVersion .sherlock) events [.read, .work 3]
  obtain ⟨more', hthere⟩ := Underway.exists_complete s events [.read, .read, .work 5]
  obtain ⟨-, hsame⟩ := feed_versions_agree.2 s .sherlock (some changesText)
  have hsent := hsame _ _ hhere hthere
  refine ⟨hevents, more, more', hhere, hthere, hsent, (hsent 3).trans ?_⟩
  rw [Underway.sent_of_complete s events _ hthere]
  decide +kernel

end Replay

end IndexFeed
