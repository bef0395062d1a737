import IndexFeed.Proofs.Batch.Grouping
import IndexFeed.Routing.Router

/-!
# What an event adds

An event that is routed puts the same entry in for each of its destinations. What it puts in does
not depend on the accumulator (`route_accumulator`), and an event that is not routed puts nothing in
(`postings_eq_nil`). Under an evaluator that does not look into the buffer, nor does it depend on
what earlier events left there (`postings_congr`, `route_result_congr`).
-/

namespace IndexFeed

open Text (Bytes)

/-- Whether a transform only looks at whether it is offered a buffer, and not at what that holds. -/
def Evaluator.Oblivious (ev : Evaluator) : Prop :=
  ∀ request b b', ev.verdict request (some b) = ev.verdict request (some b')

/-- A buffer that holds nothing, if one is offered. -/
def Buffer.fresh (offered : Bool) : Option Buffer := if offered then some .empty else none

/-- Whether an event was routed: it did not fail and was not skipped. -/
def wasRouted : Except RouteError RouteOutcome → Bool
  | .ok outcome => outcome.action ≠ .dropped
  | .error _ => false

namespace Router

/-- The opcode that a router takes an event under. -/
def opcodeOf (r : Router) (e : Event) : Opcode :=
  e.routedOpcode r.settings.definition.retainDeletedXattr

/-- The event as a router takes it. -/
def taken (r : Router) (e : Event) : Event := prepared e (r.opcodeOf e)

/-- What the transform says of the keys of an event. -/
def keysOf (r : Router) (e : Event) (buffer : Option Buffer) :
    Except (KeySide × KeyFailure) Keys × Inquiry :=
  computeKeys r.evaluator (r.taken e) (r.settings.feedVersion.gate buffer)

/-- What comes of an event that was taken as `e` under `opcode`, once its keys have been asked
for. -/
def conclude (r : Router) (e : Event) (opcode : Opcode) (b : Option Buffer) (acc : Accumulator) :
    Except (KeySide × KeyFailure) Keys × Inquiry → Routed
  | (.error (side, failure), q) =>
    { result := .error (.keys side failure e.partition e.seqno), accumulator := acc,
      buffer := q.buffer <|> b, calls := q.calls, counters := { evaluationFailures := 1 } }
  | (.ok keys, q) =>
    match classify opcode keys with
    | none =>
      { result := (r.unhandled e).1, accumulator := acc, buffer := q.buffer <|> b,
        calls := q.calls, counters := (r.unhandled e).2 }
    | some d =>
      let (outcome, acc, resolution) := r.deliver e keys d acc
      { result := .ok outcome, accumulator := acc, buffer := q.buffer <|> b, calls := q.calls,
        queries := resolution.queries, counters := resolution.counters }

/-- The keys of an event and what is decided about it, unless it fails or is not handled. -/
def plan? (r : Router) (e : Event) (buffer : Option Buffer) : Option (Keys × Decision) :=
  match (r.keysOf e buffer).1 with
  | .ok keys => (classify (r.opcodeOf e) keys).map (keys, ·)
  | .error _ => none

/-- What a plan puts in: its entry, for each destination. -/
def carriedOut (r : Router) (e : Event) (keys : Keys) (d : Decision) : List Posting :=
  let resolution := r.resolve e keys d
  resolution.destinations.map fun a => ⟨a, e.stamp r.source, r.entry e keys resolution.decision⟩

/-- What an event puts in. -/
def postings (r : Router) (e : Event) (buffer : Option Buffer) : List Posting :=
  (r.plan? e buffer).elim [] fun (keys, d) => r.carriedOut (r.taken e) keys d

/-- What an event puts in when nothing was written into the buffer before it. -/
def puts (r : Router) (e : Event) (offered : Bool) : List Posting :=
  r.postings e (Buffer.fresh offered)

end Router

/-! ### Events as they are taken -/

namespace Router

variable (r : Router) (e : Event)

/-- A router changes nothing of an event but its datatype. -/
theorem taken_eq : r.taken e = { e with datatype := (r.taken e).datatype } := by
  unfold taken prepared
  split <;> rfl

@[simp] theorem taken_key : (r.taken e).key = e.key := by
  rw [taken_eq]

@[simp] theorem taken_seqno : (r.taken e).seqno = e.seqno := by
  rw [taken_eq]

@[simp] theorem taken_ctime : (r.taken e).ctime = e.ctime := by
  rw [taken_eq]

@[simp] theorem taken_partition : (r.taken e).partition = e.partition := by
  rw [taken_eq]

@[simp] theorem taken_epoch : (r.taken e).epoch = e.epoch := by
  rw [taken_eq]

@[simp] theorem taken_stamp (source : String) : (r.taken e).stamp source = e.stamp source := by
  rw [taken_eq]
  rfl

/-- A change of a document stays one under whatever opcode it is routed. -/
theorem isData_opcodeOf : (r.opcodeOf e).isData = e.opcode.isData := by
  unfold opcodeOf Event.routedOpcode
  split
  · next hretained =>
    have hremoval : e.opcode.isRemoval = true := (Bool.and_eq_true_iff.1 hretained).2
    cases hopcode : e.opcode <;> rw [hopcode] at hremoval <;> first | rfl | cases hremoval
  · rfl

end Router

/-! ### Keys and buffers -/

/-- Two rounds of questions lead to the same keys if the transform cannot tell them apart: what they
have in common gives the same answers, and they still have it in common afterwards. -/
theorem computeKeys_congr_of {ev : Evaluator} {e : Event} {P : Inquiry → Inquiry → Prop}
    (hask : ∀ body q q', P q q' → (askKey ev e body q).1 = (askKey ev e body q').1 ∧
      P (askKey ev e body q).2 (askKey ev e body q').2)
    {b b' : Option Buffer} (h : P ⟨b, []⟩ ⟨b', []⟩) :
    (computeKeys ev e b).1 = (computeKeys ev e b').1 := by
  obtain ⟨hnew, hq⟩ := hask e.value _ _ h
  unfold computeKeys
  generalize askKey ev e e.value ⟨b, []⟩ = out at hnew hq
  generalize askKey ev e e.value ⟨b', []⟩ = out' at hnew hq
  obtain ⟨new, q⟩ := out
  obtain ⟨new', q'⟩ := out'
  obtain rfl : new = new' := hnew
  obtain ⟨hold, -⟩ := hask e.oldValue _ _ hq
  cases new with
  | error f => rfl
  | ok new =>
    simp only
    generalize askKey ev e e.oldValue q = out at hold
    generalize askKey ev e e.oldValue q' = out' at hold
    obtain ⟨old, q₂⟩ := out
    obtain ⟨old', q₂'⟩ := out'
    obtain rfl : old = old' := hold
    cases old <;> rfl

section Oblivious

variable {ev : Evaluator} (hev : ev.Oblivious)

include hev in
theorem Evaluator.Oblivious.verdict_eq {b b' : Option Buffer} (h : b.isSome = b'.isSome)
    (request : Request) : ev.verdict request b = ev.verdict request b' := by
  cases b with
  | none => cases b' with
    | none => rfl
    | some _ => cases h
  | some b => cases b' with
    | none => cases h
    | some b' => exact hev request b b'

theorem askKey_buffer_isSome (ev : Evaluator) (e : Event) (body : Bytes) (q : Inquiry) :
    (askKey ev e body q).2.buffer.isSome = q.buffer.isSome := by
  unfold askKey
  split
  · rfl
  · simp [Inquiry.after]

include hev in
theorem askKey_congr (e : Event) (body : Bytes) {q q' : Inquiry}
    (h : q.buffer.isSome = q'.buffer.isSome) :
    (askKey ev e body q).1 = (askKey ev e body q').1 := by
  unfold askKey
  split
  · rfl
  · simp only [hev.verdict_eq h]

include hev in
/-- The keys of an event do not depend on what the buffer holds, though the transform is asked for
the second key with the buffer as the first one left it. -/
theorem computeKeys_congr (e : Event) {b b' : Option Buffer} (h : b.isSome = b'.isSome) :
    (computeKeys ev e b).1 = (computeKeys ev e b').1 := by
  refine computeKeys_congr_of (P := fun q q' => q.buffer.isSome = q'.buffer.isSome)
    (fun body q q' hq => ⟨askKey_congr hev e body hq, ?_⟩) h
  rw [askKey_buffer_isSome, askKey_buffer_isSome, hq]

end Oblivious

/-- No partition keys are computed. -/
theorem eq_of_computeKeys {ev : Evaluator} {e : Event} {b : Option Buffer} {keys : Keys}
    (h : (computeKeys ev e b).1 = .ok keys) : keys = { new := keys.new, old := keys.old } := by
  unfold computeKeys at h
  split at h
  · cases h
  · split at h
    · cases h
    · cases h
      rfl

theorem newPartition_of_computeKeys {ev : Evaluator} {e : Event} {b : Option Buffer} {keys : Keys}
    (h : (computeKeys ev e b).1 = .ok keys) : keys.newPartition = none :=
  congrArg Keys.newPartition (eq_of_computeKeys h)

theorem FeedVersion.gate_isSome (v : FeedVersion) {b b' : Option Buffer}
    (h : b.isSome = b'.isSome) : (v.gate b).isSome = (v.gate b').isSome := by
  unfold gate
  split
  · rfl
  · exact h

/-! ### Routing an event -/

theorem classify_isSome (opcode : Opcode) (keys : Keys) :
    (classify opcode keys).isSome = opcode.isData := by
  cases opcode with
  | mutation => by_cases h : keys.matches <;> simp [classify, h, Opcode.isData]
  | _ => rfl

theorem isData_of_classify {opcode : Opcode} {keys : Keys} {d : Decision}
    (h : classify opcode keys = some d) : opcode.isData = true := by
  rw [← classify_isSome opcode keys, h, Option.isSome_some]

theorem Decision.action_ne_dropped (d : Decision) : d.action ≠ .dropped := by
  cases d <;> simp [Decision.action]

/-- **What routing an event can come to**: it is not handled, its keys fail, or it is delivered. -/
inductive Routes (r : Router) (e : Event) (b : Option Buffer) (acc : Accumulator) : Routed → Prop
  | unhandled (hdata : (r.opcodeOf e).isData = false) :
    Routes r e b acc
      { result := (r.unhandled e).1, accumulator := acc, buffer := b,
        counters := (r.unhandled e).2 }
  | failed {side : KeySide} {failure : KeyFailure} {q : Inquiry}
      (hdata : (r.opcodeOf e).isData = true) (hkeys : r.keysOf e b = (.error (side, failure), q)) :
    Routes r e b acc
      { result := .error (.keys side failure (r.taken e).partition (r.taken e).seqno),
        accumulator := acc, buffer := q.buffer <|> b, calls := q.calls,
        counters := { evaluationFailures := 1 } }
  | delivered {keys : Keys} {q : Inquiry} {d : Decision}
      (hkeys : r.keysOf e b = (.ok keys, q)) (hd : classify (r.opcodeOf e) keys = some d) :
    Routes r e b acc
      { result := .ok (r.deliver (r.taken e) keys d acc).1,
        accumulator := (r.deliver (r.taken e) keys d acc).2.1,
        buffer := q.buffer <|> b, calls := q.calls,
        queries := (r.deliver (r.taken e) keys d acc).2.2.queries,
        counters := (r.deliver (r.taken e) keys d acc).2.2.counters }

namespace Router

section Route

variable (r : Router) (e : Event) (b : Option Buffer) (acc : Accumulator)

theorem route_eq :
    r.route e b acc =
      if (r.opcodeOf e).isData then
        r.conclude (r.taken e) (r.opcodeOf e) b acc (r.keysOf e b)
      else
        { result := (r.unhandled e).1, accumulator := acc, buffer := b,
          counters := (r.unhandled e).2 } := by
  have hopcode : e.routedOpcode r.settings.definition.retainDeletedXattr = r.opcodeOf e := rfl
  have htaken : prepared e (r.opcodeOf e) = r.taken e := rfl
  have hasked : computeKeys r.evaluator (r.taken e) (r.settings.feedVersion.gate b) =
      r.keysOf e b := rfl
  unfold route
  simp only [hopcode, htaken, hasked]
  cases (r.opcodeOf e).isData with
  | false => rfl
  | true =>
    rcases r.keysOf e b with ⟨⟨side, failure⟩ | keys, q⟩
    · rfl
    · cases hd : classify (r.opcodeOf e) keys <;> simp [conclude, hd]

theorem routes_route : Routes r e b acc (r.route e b acc) := by
  rw [route_eq]
  cases hdata : (r.opcodeOf e).isData with
  | false => exact .unhandled hdata
  | true =>
    rcases hkeys : r.keysOf e b with ⟨⟨side, failure⟩ | keys, q⟩
    · exact .failed hdata hkeys
    · obtain ⟨d, hd⟩ :=
        Option.isSome_iff_exists.1 ((classify_isSome (r.opcodeOf e) keys).trans hdata)
      simp only [conclude, hd]
      exact .delivered hkeys hd

theorem result_conclude (opcode : Opcode) {b b' : Option Buffer} {acc acc' : Accumulator}
    {out out' : Except (KeySide × KeyFailure) Keys × Inquiry} (h : out.1 = out'.1) :
    (r.conclude e opcode b acc out).result = (r.conclude e opcode b' acc' out').result := by
  obtain ⟨keys, q⟩ := out
  obtain ⟨keys', q'⟩ := out'
  obtain rfl : keys = keys' := h
  cases keys with
  | error f => rfl
  | ok keys => cases hd : classify opcode keys <;> simp [conclude, hd, deliver]

theorem plan?_of_keys {keys : Keys} {q : Inquiry} (h : r.keysOf e b = (.ok keys, q)) :
    r.plan? e b = (classify (r.opcodeOf e) keys).map (keys, ·) := by
  rw [plan?, h]

theorem plan?_of_not_isData (h : (r.opcodeOf e).isData = false) : r.plan? e b = none := by
  unfold plan?
  split
  · next keys _ =>
    have hnone := classify_isSome (r.opcodeOf e) keys
    rw [h, Option.isSome_eq_false_iff, Option.isNone_iff_eq_none] at hnone
    rw [hnone, Option.map_none]
  · rfl

/-- What an event puts in comes under the stamp of the event, which is a change of a document. -/
theorem of_mem_postings {x : Posting} (h : x ∈ r.postings e b) :
    x.stamp = e.stamp r.source ∧ e.opcode.isData = true := by
  unfold postings at h
  cases hplan : r.plan? e b with
  | none =>
    rw [hplan] at h
    cases h
  | some plan =>
    have hdata : (r.opcodeOf e).isData = true := by
      by_contra hnot
      rw [r.plan?_of_not_isData e b (Bool.eq_false_iff.2 hnot)] at hplan
      cases hplan
    rw [hplan] at h
    obtain ⟨a, -, rfl⟩ := List.mem_map.1 h
    exact ⟨r.taken_stamp e r.source, (r.isData_opcodeOf e).symm.trans hdata⟩

theorem deliver_accumulator (keys : Keys) (d : Decision) :
    (r.deliver e keys d acc).2.1 = acc.putAll (r.carriedOut e keys d) := by
  simp only [deliver, carriedOut, Accumulator.putAll, List.foldl_map]
  rfl

/-- **What an event puts in does not depend on the accumulator.** -/
theorem route_accumulator : (r.route e b acc).accumulator = acc.putAll (r.postings e b) := by
  have h := r.routes_route e b acc
  generalize r.route e b acc = out at h
  unfold postings
  cases h with
  | unhandled hdata => rw [r.plan?_of_not_isData e b hdata]; rfl
  | failed hdata hkeys => rw [plan?, hkeys]; rfl
  | delivered hkeys hd =>
    rw [r.plan?_of_keys e b hkeys, hd]
    exact r.deliver_accumulator (r.taken e) acc _ _

theorem wasRouted_route : wasRouted (r.route e b acc).result = (r.plan? e b).isSome := by
  have h := r.routes_route e b acc
  generalize r.route e b acc = out at h
  cases h with
  | unhandled hdata =>
    rw [r.plan?_of_not_isData e b hdata]
    unfold unhandled
    split <;> rfl
  | failed hdata hkeys => rw [plan?, hkeys]; rfl
  | delivered hkeys hd =>
    rw [r.plan?_of_keys e b hkeys, hd]
    exact decide_eq_true (Decision.action_ne_dropped _)

/-- **An event that is not routed puts nothing in.** -/
theorem postings_eq_nil (h : wasRouted (r.route e b acc).result = false) : r.postings e b = [] := by
  rw [wasRouted_route, Option.isSome_eq_false_iff, Option.isNone_iff_eq_none] at h
  rw [postings, h]
  rfl

end Route

/-! ### Routing under an oblivious evaluator -/

section Oblivious

variable {r : Router} (hr : r.evaluator.Oblivious) (e : Event) {b b' : Option Buffer}
  (hb : b.isSome = b'.isSome)

include hr hb

theorem keysOf_congr : (r.keysOf e b).1 = (r.keysOf e b').1 :=
  computeKeys_congr hr _ (FeedVersion.gate_isSome _ hb)

theorem postings_congr : r.postings e b = r.postings e b' := by
  rw [postings, postings, plan?, plan?, keysOf_congr hr e hb]

theorem route_result_congr (acc acc' : Accumulator) :
    (r.route e b acc).result = (r.route e b' acc').result := by
  rw [route_eq, route_eq]
  split
  · exact r.result_conclude (r.taken e) (r.opcodeOf e) (keysOf_congr hr e hb)
  · rfl

end Oblivious

end Router

end IndexFeed
