import IndexFeed.Proofs.Replay.Delivery
import IndexFeed.Proofs.Replay.RecordedBodies
import IndexFeed.Proofs.Replay.RecordedLines
import Mathlib.Algebra.Order.BigOperators.Group.List
import Mathlib.Algebra.Order.Ring.Nat

/-!
# Keys of recorded events

Since no body of a recorded event fails, an event of a replay fails for its opcode only
(`Router.isEvaluationFailure_of_answers`), and what failed in a replay is what was rejected
(`failed_run`). The keys are those of the values that the lines held (`lossless_keys`).
-/

namespace IndexFeed

open Text (Bytes)

/-- Whether the opcode is a code without a meaning. -/
def Opcode.isOther : Opcode → Bool
  | other _ => true
  | _ => false

/-! ### Events that fail -/

namespace Router

/-- Whether an event is an error for its opcode. -/
def rejects (r : Router) (e : Event) : Bool :=
  e.opcode.isOther && r.settings.unknownOpcodes = .reject

/-- The transform has an answer to whatever it is asked about the event. -/
def Answers (r : Router) (e : Event) : Prop := ∀ b, ∃ keys, (r.keysOf e b).1 = .ok keys

variable {r : Router} {e : Event}

theorem isOther_eq_false_of_control {m : Lifecycle} (h : r.control e = some m) :
    e.opcode.isOther = false := by
  unfold control Lifecycle.ofEvent? at h
  cases hopcode : e.opcode with
  | other code =>
    rw [hopcode] at h
    cases h
  | _ => rfl

/-- Of the events that do not call for a message, all but those with unknown opcodes are taken for
changes. -/
theorem isData_of_control (h : r.control e = none) : (r.opcodeOf e).isData = !e.opcode.isOther := by
  rw [isData_opcodeOf]
  unfold control Lifecycle.ofEvent? at h
  cases hopcode : e.opcode <;> rw [hopcode] at h <;> first | rfl | cases h

section Answers

variable (h : r.Answers e)

include h

/-- **An event whose keys are answered** fails for its opcode only. -/
theorem isEvaluationFailure_of_answers {b : Option Buffer} {acc : Accumulator} {error : RouteError}
    (herror : (r.route e b acc).result = .error error) : error.isEvaluationFailure = false := by
  have hroutes := r.routes_route e b acc
  generalize r.route e b acc = out at hroutes herror
  cases hroutes with
  | unhandled hdata =>
    simp only [unhandled] at herror
    split at herror <;> cases herror
    rfl
  | failed hdata hkeys =>
    obtain ⟨keys, hok⟩ := h b
    rw [hkeys] at hok
    cases hok
  | delivered hkeys hd => cases herror

theorem isOk_route (hcontrol : r.control e = none) (b : Option Buffer) (acc : Accumulator) :
    (r.route e b acc).result.isOk = !r.rejects e := by
  have hdata := isData_of_control hcontrol
  have hroutes := r.routes_route e b acc
  generalize r.route e b acc = out at hroutes
  cases hroutes with
  | unhandled hnot =>
    have hother : e.opcode.isOther = true := by simpa [hnot] using hdata
    rw [rejects, hother, unhandled]
    cases r.settings.unknownOpcodes <;> rfl
  | failed hdata hkeys =>
    obtain ⟨keys, hok⟩ := h b
    rw [hkeys] at hok
    cases hok
  | delivered hkeys hd =>
    have hother : e.opcode.isOther = false := by simpa [isData_of_classify hd] using hdata
    rw [rejects, hother]
    rfl

theorem failed_tally (x : ReplayStats) :
    (r.tally x e).failed = x.failed + if r.rejects e then 1 else 0 := by
  unfold tally
  split
  · next m hm =>
    rw [rejects, isOther_eq_false_of_control hm]
    rfl
  · next hnone =>
    have hok := isOk_route h hnone (Buffer.fresh true) .empty
    cases hresult : (r.route e (Buffer.fresh true) .empty).result with
    | error error =>
      rw [hresult] at hok
      have hrejects : r.rejects e = true := by simpa [Except.isOk, Except.toBool] using hok
      rw [hrejects]
      rfl
    | ok outcome =>
      rw [hresult] at hok
      have hrejects : r.rejects e = false := by simpa [Except.isOk, Except.toBool] using hok
      rw [hrejects, Worker.count]
      split <;> rfl

end Answers

/-- **What fails** among events whose keys are answered is what is rejected. -/
theorem failed_foldl_tally {events : List Event} (h : ∀ e ∈ events, r.Answers e) :
    (events.foldl r.tally {}).failed = events.countP r.rejects := by
  induction events using List.reverseRecOn with
  | nil => rfl
  | append_singleton events e ih =>
    obtain ⟨hevents, he⟩ := List.forall_mem_append.1 h
    rw [List.foldl_append, List.countP_append, ← ih hevents, List.countP_singleton]
    exact failed_tally (he e List.mem_cons_self) _

end Router

/-! ### Counts over partitions -/

theorem countP_eventsOf_add (q : Event → Bool) (events : List Event) {p : UInt16}
    {ps : List UInt16} (hp : p ∉ ps) :
    (eventsOf p events).countP q + (events.countP fun e => q e && decide (e.partition ∈ ps)) =
      events.countP fun e => q e && decide (e.partition ∈ p :: ps) := by
  rw [eventsOf, List.countP_filter]
  induction events with
  | nil => rfl
  | cons e events ih =>
    simp only [List.countP_cons, ← ih]
    by_cases heq : e.partition = p
    · simp only [heq, hp, List.mem_cons, true_or, decide_true, decide_false, Bool.and_true,
        Bool.and_false, Bool.false_eq_true, if_false]
      omega
    · simp only [heq, List.mem_cons, false_or, decide_false, Bool.and_false, Bool.false_eq_true,
        if_false]
      omega

theorem sum_countP_eventsOf (q : Event → Bool) (events : List Event) {ps : List UInt16}
    (hps : ps.Nodup) :
    (ps.map fun p => (eventsOf p events).countP q).sum =
      events.countP fun e => q e && decide (e.partition ∈ ps) := by
  induction ps with
  | nil => simp
  | cons p ps ih =>
    obtain ⟨hp, hps⟩ := List.nodup_cons.1 hps
    rw [List.map_cons, List.sum_cons, ih hps, countP_eventsOf_add q events hp]

theorem mem_partitionsOf_of_mem {e : Event} {events : List Event} (h : e ∈ events) :
    e.partition ∈ partitionsOf events := by
  have hmem : e ∈ eventsOf e.partition events := List.mem_filter.2 ⟨h, decide_eq_true rfl⟩
  exact mem_partitionsOf.2 (List.ne_nil_of_mem hmem)

theorem sum_countP_partitionsOf (q : Event → Bool) (events : List Event) :
    ((partitionsOf events).map fun p => (eventsOf p events).countP q).sum = events.countP q := by
  rw [sum_countP_eventsOf q events (nodup_partitionsOf events)]
  refine List.countP_congr fun e he => ?_
  rw [decide_eq_true (mem_partitionsOf_of_mem he), Bool.and_true]

theorem ReplayStats.failed_sum (xs : List ReplayStats) :
    (sum xs).failed = (xs.map (·.failed)).sum := by
  induction xs with
  | nil => rfl
  | cons x xs ih =>
    rw [List.map_cons, List.sum_cons, ← ih]
    rfl

/-! ### Recordings -/

namespace Recording

/-- Whether the floats in the bodies of all records of a text are read back. -/
def FloatsReadBack (text : Bytes) : Prop :=
  ∀ line ∈ lines text, ∀ r ∈ (RecordedEvent.ofLine (stripEnd line)).toOption, r.FloatsReadBack

instance (text : Bytes) : Decidable (FloatsReadBack text) :=
  inferInstanceAs (Decidable (∀ line ∈ lines text,
    ∀ r ∈ (RecordedEvent.ofLine (stripEnd line)).toOption, r.FloatsReadBack))

theorem exists_record_of_eventOf? {content : Bytes} {e : Event} (h : eventOf? content = some e) :
    ∃ r, RecordedEvent.ofLine content = .ok r ∧ r.toEvent = .ok e := by
  unfold eventOf? at h
  split at h
  · cases h
  · cases hr : RecordedEvent.ofLine content with
    | error _ =>
      rw [hr] at h
      cases h
    | ok r =>
      rw [hr] at h
      refine ⟨r, rfl, ?_⟩
      cases hevent : r.toEvent with
      | error _ => simp [bind, Except.bind, hevent, Except.toOption] at h
      | ok event => simpa [bind, Except.bind, hevent, Except.toOption] using h

/-- Each event of a recording stands in one of its lines, also if the recording is not read to its
end. -/
theorem exists_record_of_mem {number : Nat} {ls : List Bytes} {e : Event}
    (h : e ∈ (ofLines number ls).events) :
    ∃ line ∈ ls, ∃ r, RecordedEvent.ofLine (stripEnd line) = .ok r ∧ r.toEvent = .ok e := by
  induction ls generalizing number with
  | nil => cases h
  | cons line ls ih =>
    rw [ofLines] at h
    have hlater : ∀ {number}, e ∈ (ofLines number ls).events → ∃ l ∈ line :: ls, ∃ r,
        RecordedEvent.ofLine (stripEnd l) = .ok r ∧ r.toEvent = .ok e := by
      intro number h
      obtain ⟨l, hl, hr⟩ := ih h
      exact ⟨l, List.mem_cons_of_mem _ hl, hr⟩
    split at h
    · cases h
    · exact hlater h
    · next e' hread =>
      rcases List.mem_cons.1 h with rfl | h
      · refine ⟨line, List.mem_cons_self, ?_⟩
        have hevent := readLine_of_readable (readable_of_readLine hread) number
        rw [hread] at hevent
        exact exists_record_of_eventOf? (Except.ok.inj hevent).symm
      · exact hlater h

end Recording

namespace Replay

variable {s : ReplaySettings}

/-- The transform of a replay fails on no recorded event. -/
theorem answers_of_mem_ofText {text : Bytes} (h : Recording.FloatsReadBack text) {e : Event}
    (he : e ∈ (Recording.ofText (some text)).events) : s.toRouter.Answers e := by
  obtain ⟨line, hline, r, hr, hevent⟩ := Recording.exists_record_of_mem he
  have hfloats : r.FloatsReadBack := by
    refine h line hline r ?_
    rw [hr]
    rfl
  intro b
  have hkeys := RecordedEvent.computeKeys_toEvent hr hevent hfloats ⟨s.keyFields⟩
    (s.router.feedVersion.gate b)
  have htaken : (s.toRouter.keysOf e b).1 =
      (computeKeys (Projection.evaluator ⟨s.keyFields⟩) e (s.router.feedVersion.gate b)).1 := by
    unfold Router.keysOf Router.taken Router.prepared
    split <;> rfl
  exact ⟨_, htaken.trans hkeys⟩

theorem eq_of_outcome_eq_ok {stats stats' : ReplayStats} {sinkError : Option SinkError}
    {error : Option RecordingError} (h : outcome stats sinkError error = .ok stats') :
    stats' = stats := by
  unfold outcome at h
  split at h <;> cases h
  rfl

/-- **What failed in a replay** is what was rejected, if no transform failed. -/
theorem failed_run {recording : Recording}
    (h : ∀ e ∈ recording.events, s.toRouter.Answers e) {sink : Sink} {stats : ReplayStats}
    (hstats : (run s recording sink).stats = .ok stats) :
    stats.failed = recording.events.countP s.toRouter.rejects := by
  have hworker : ∀ p, (workerOf s p recording.events).stats.failed =
      (eventsOf p recording.events).countP s.toRouter.rejects := by
    intro p
    have hbesides := Worker.besidesBatches_run (r := s.toRouter) (Projection.oblivious _)
      s.flushEvery.toNat (eventsOf p recording.events)
    have hfold := Router.failed_foldl_tally (r := s.toRouter)
      (fun e (he : e ∈ eventsOf p recording.events) => h e (List.mem_filter.1 he).1)
    rw [← hfold, ← hbesides]
    rfl
  have hsum := eq_of_outcome_eq_ok hstats
  rw [hsum, ReplayStats.failed_sum, workers_eq, List.map_map, List.map_map,
    ← sum_countP_partitionsOf]
  exact congrArg List.sum (List.map_congr_left fun p _ => hworker p)

/-- **From a line to its keys without loss.** Where the text of each finite float is read as a
float, the bodies of a record that stands for an event are accepted by every projection, for they
are read back from their texts, levels and all; a body that is null or missing is empty, and is not
asked about. The keys are computed, and those of bodies without floats are the keys of the values
in the record, where the attributes of a removed document stand for its value. So no event of a
replay fails but for its opcode, and the statistics count those as failed that are rejected. -/
theorem lossless_keys :
    (∀ (line : Bytes) (r : RecordedEvent) (e : Event), RecordedEvent.ofLine line = .ok r →
      r.toEvent = .ok e → r.FloatsReadBack →
        let document := if r.opcode = .deletion ∨ r.opcode = .expiration then r.xattrs <|> r.value
          else r.value
        (e.value = [] ↔ document = none) ∧ (e.oldValue = [] ↔ r.oldValue = none) ∧
        (∀ v, document = some v ∨ r.oldValue = some v → v ≠ .null) ∧
        ∀ p : Projection,
          (∀ body ∈ [e.value, e.oldValue], body ≠ [] → ∀ key metadata buffer,
            ∃ k, p.evaluator.verdict ⟨key, body, metadata⟩ buffer = .answered k) ∧
          ∀ buffer, ∃ keys, (computeKeys p.evaluator e buffer).1 = .ok keys ∧
            ((∀ v ∈ document, v.floats = []) →
              keys.new = document.bind fun v => (p.tuple v).encode) ∧
            ((∀ v ∈ r.oldValue, v.floats = []) →
              keys.old = r.oldValue.bind fun v => (p.tuple v).encode)) ∧
      ∀ (s : ReplaySettings) (text : Bytes), Recording.FloatsReadBack text →
        let recording := Recording.ofText (some text)
        (∀ e ∈ recording.events, ∀ buffer acc error,
          (s.toRouter.route e buffer acc).result = .error error →
            error.isEvaluationFailure = false) ∧
        (∀ sink stats, (run s recording sink).stats = .ok stats →
          stats.failed = if s.router.unknownOpcodes = .reject then
            recording.events.countP (·.opcode.isOther) else 0) ∧
        (recording.error = none → ∃ stats, (run s recording {}).stats = .ok stats) := by
  refine ⟨fun line r e hr he hfloats => ?_, fun s text hfloats => ⟨?_, ?_, ?_⟩⟩
  -- the bodies and keys of one line
  · intro document
    have hdocument : document = r.body := r.body_eq.symm
    obtain ⟨-, hvalue, holdValue⟩ := RecordedEvent.toEvent_eq_ok he
    have hmem : r.body ∈ [r.body, r.oldValue] := List.mem_cons_self
    have hmemOld : r.oldValue ∈ [r.body, r.oldValue] := List.mem_cons_of_mem _ List.mem_cons_self
    rw [hdocument, hvalue, holdValue]
    refine ⟨RecordedEvent.bodyText_eq_nil, RecordedEvent.bodyText_eq_nil, ?_, fun p =>
      ⟨?_, fun buffer => ⟨_, RecordedEvent.computeKeys_toEvent hr he hfloats p buffer, ?_, ?_⟩⟩⟩
    · rintro v (hv | hv)
      · exact (RecordedEvent.isBody_of_mem hr hmem hv).ne_null
      · exact (RecordedEvent.isBody_of_mem hr hmemOld hv).ne_null
    · intro body hbody hne docid m buffer
      rcases List.mem_pair.1 hbody with rfl | rfl
      · exact RecordedEvent.answered_of_mem hr hfloats hmem hne p docid m buffer
      · exact RecordedEvent.answered_of_mem hr hfloats hmemOld hne p docid m buffer
    · intro hnone
      exact congrArg p.key (RecordedEvent.map_reread hr hmem hnone)
    · intro hnone
      exact congrArg p.key (RecordedEvent.map_reread hr hmemOld hnone)
  -- whole recordings: as every body is answered, what fails is a rejected opcode
  · intro e he buffer acc error herror
    exact Router.isEvaluationFailure_of_answers (answers_of_mem_ofText hfloats he) herror
  · intro sink stats hstats
    have hfailed := failed_run (fun e he => answers_of_mem_ofText hfloats he) hstats
    have hrejects : s.toRouter.rejects =
        fun e => e.opcode.isOther && s.router.unknownOpcodes = .reject := rfl
    rw [hfailed, hrejects]
    split
    · next hreject => simp [hreject]
    · next hdrop => simp [hdrop]
  · intro herror
    exact ⟨_, stats_run s _ herror⟩

/-- A removal that leaves extended attributes, and took a document with a float away. -/
def removedLine : String :=
  "\x7b\"opcode\":\"deletion\",\"partition\":3,\"value\":[0]," ++
    "\"old_value\":\x7b\"g\":1.5\x7d,\"xattrs\":\x7b\"g\":\"\\u00e9\\n\",\"f\":[2,-3]\x7d\x7d"

/-- The removal, and an event whose opcode has no meaning. -/
def removedText : String :=
  removedLine ++ "\n\x7b\"opcode\":\x7b\"other\":9\x7d,\"partition\":3\x7d\n"

theorem lossless_keys_removal :
    let s : ReplaySettings := {
      router := { definition := { source := "orders", instanceId := 7 }, unknownOpcodes := .reject }
      topology := .ofAddresses ["a", "b"]
      keyFields := ["f", "g"] }
    (∃ r e keys, RecordedEvent.ofLine (Text.encode removedLine) = .ok r ∧ r.toEvent = .ok e ∧
      r.FloatsReadBack ∧ (computeKeys (Projection.evaluator ⟨["f", "g"]⟩) e none).1 = .ok keys ∧
      keys.new = some (Text.encode "[[2,-3],\"é\\n\"]")) ∧
      Recording.FloatsReadBack (Text.encode removedText) ∧
      ∃ stats, (run s (.ofText (some (Text.encode removedText))) {}).stats = .ok stats ∧
        stats.failed = 1 := by
  intro s
  have hfloats : Recording.FloatsReadBack (Text.encode removedText) := by decide +kernel
  have hreplayed : (fun recording : Recording =>
      (recording.error.isNone, recording.events.countP (·.opcode.isOther)))
        (.ofText (some (Text.encode removedText))) = (true, 1) := by
    decide +kernel
  obtain ⟨hnone, hother⟩ := Prod.mk.inj hreplayed
  have herror := Option.isNone_iff_eq_none.1 hnone
  have hread : (RecordedEvent.ofLine (Text.encode removedLine)).toOption.any (fun r =>
      r.toEvent.isOk && r.FloatsReadBack && r.opcode = .deletion &&
        (r.xattrs <|> r.value).all (·.floats.isEmpty) &&
        ((r.xattrs <|> r.value).bind fun v => (Projection.tuple ⟨["f", "g"]⟩ v).encode) =
          some (Text.encode "[[2,-3],\"é\\n\"]")) = true := by
    decide +kernel
  constructor
  · cases hr : RecordedEvent.ofLine (Text.encode removedLine) with
    | error _ =>
      rw [hr] at hread
      cases hread
    | ok r =>
      simp only [hr, Except.toOption, Option.any_some, Bool.and_eq_true, decide_eq_true_eq]
        at hread
      obtain ⟨⟨⟨⟨hevent, hreadBack⟩, hopcode⟩, hnone⟩, hkey⟩ := hread
      cases he : r.toEvent with
      | error _ =>
        rw [he] at hevent
        cases hevent
      | ok e =>
        obtain ⟨-, -, -, hkeys⟩ := lossless_keys.1 _ r e hr he hreadBack
        obtain ⟨keys, hok, hnew, -⟩ := (hkeys ⟨["f", "g"]⟩).2 none
        rw [if_pos (.inl hopcode)] at hnew
        refine ⟨r, e, keys, rfl, he, hreadBack, hok, (hnew fun v hv => ?_).trans hkey⟩
        exact List.isEmpty_iff.1 ((Option.all_eq_true _ _).1 hnone v hv)
  · obtain ⟨-, hfailed, hends⟩ := lossless_keys.2 s (Text.encode removedText) hfloats
    obtain ⟨stats, hstats⟩ := hends herror
    have hcount := hfailed {} stats hstats
    rw [if_pos rfl, hother] at hcount
    exact ⟨hfloats, stats, hstats, hcount⟩

end Replay

end IndexFeed
