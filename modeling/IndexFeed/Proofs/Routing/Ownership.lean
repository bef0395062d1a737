import IndexFeed.Proofs.Routing.Desk
import IndexFeed.Topology.Ring

/-!
# Owners under a fixed ring

As long as all routers share one ring, a document is only ever put into the index of the endpoint
that owns its key, and that endpoint hears of every later change of the document: of a new version
since it owns it, of a removal since all endpoints hear of removals. So no endpoint is left with an
entry that is out of date (`no_stale_entries`).
-/

namespace IndexFeed

open Text (Bytes)

/-- Whether an endpoint is told to hold an entry for a document. -/
def Command.isUpsert : Command → Bool
  | .upsert .. => true
  | _ => false

/-- Whether an endpoint is told to remove what it holds of a document. -/
def Command.isRemoval : Command → Bool
  | .upsertDeletion .. | .deletion .. => true
  | _ => false

/-- The endpoint `a` was at some time told to hold an entry for the document `key`. -/
def WasTold {ι : Type} (log : List (Attempt ι)) (key : Bytes) (a : Address) : Prop :=
  ∃ u ∈ log, ∃ x ∈ u.appended a, x.docid = key ∧ x.command.isUpsert = true

/-! ### The calls of a run -/

theorem Desk.exists_of_mem_log {ι : Type} [DecidableEq ι] {d : Desk ι} {moves : List (Move ι)}
    {u : Attempt ι} (hu : u ∈ d.log moves) :
    ∃ (d' : Desk ι) (r : Router) (c : RouteCall ι), .route r c ∈ moves ∧ u = d'.attempt r c := by
  induction moves generalizing d with
  | nil => cases hu
  | cons m moves ih =>
    cases m with
    | route r c =>
      rcases List.mem_cons.1 hu with rfl | hu
      · exact ⟨d, r, c, List.mem_cons_self, rfl⟩
      · obtain ⟨d', r', c', hmem, rfl⟩ := ih hu
        exact ⟨d', r', c', List.mem_cons_of_mem _ hmem, rfl⟩
    | drain i =>
      obtain ⟨d', r, c, hmem, rfl⟩ := ih hu
      exact ⟨d', r, c, List.mem_cons_of_mem _ hmem, rfl⟩

/-! ### Who hears of a document -/

theorem Ring.mem_takers {ring : Ring} {key : Bytes} {a : Address} :
    a ∈ ring.takers key ↔
      ∃ owner, ring.owner key = some owner ∧ owner.accepting = true ∧ owner.address = a := by
  unfold takers
  cases ring.owner key with
  | none => simp
  | some owner =>
    constructor
    · intro h
      by_cases hacc : owner.accepting = true
      · have haddr : a = owner.address := by simpa [hacc] using h
        exact ⟨owner, rfl, hacc, haddr.symm⟩
      · simp [hacc] at h
    · rintro ⟨_, hown, hacc, rfl⟩
      cases hown
      simp [hacc]

theorem Ring.mem_addresses_of_mem_takers {ring : Ring} {key : Bytes} {a : Address}
    (h : a ∈ ring.takers key) : a ∈ ring.addresses := by
  obtain ⟨owner, howner, -, rfl⟩ := mem_takers.1 h
  exact List.mem_map_of_mem (List.mem_of_getElem? howner)

namespace Router

theorem newPartition_of_plan? {r : Router} {e : Event} {b : Option Buffer} {keys : Keys}
    {d : Decision} (h : r.plan? e b = some (keys, d)) : keys.newPartition = none := by
  unfold plan? at h
  split at h
  · next keys' hkeys =>
    obtain ⟨_, -, heq⟩ := Option.map_eq_some_iff.1 h
    cases heq
    exact newPartition_of_computeKeys hkeys
  · cases h

theorem mem_entriesTo_postings {r : Router} {e : Event} {b : Option Buffer} {keys : Keys}
    {d : Decision} (h : r.plan? e b = some (keys, d)) {a : Address} {x : Entry} :
    x ∈ entriesTo a (r.postings e b) ↔
      a ∈ (r.resolve (r.taken e) keys d).destinations ∧
        x = r.entry (r.taken e) keys (r.resolve (r.taken e) keys d).decision := by
  rw [mem_entriesTo, postings, h]
  simp only [Option.elim_some, carriedOut, List.mem_map]
  constructor
  · rintro ⟨_, ⟨a', ha', rfl⟩, rfl, rfl⟩
    exact ⟨ha', rfl⟩
  · rintro ⟨ha, rfl⟩
    exact ⟨_, ⟨a, ha, rfl⟩, rfl, rfl⟩

section Ring

variable {ring : Ring} {r : Router} (hring : r.resolver = ring.resolver) (e : Event) {keys : Keys}
  (hkeys : keys.newPartition = none) (d : Decision) {a : Address}

include hring hkeys

theorem mem_destinations_of_taker (ha : a ∈ ring.takers e.key) :
    a ∈ (r.resolve e keys d).destinations := by
  have hall := Ring.mem_addresses_of_mem_takers ha
  cases d with
  | upsert n o p =>
    have htakers : r.resolver.endpoints (query e keys .upsert) = ring.takers e.key := by
      simp [hring, Ring.resolver, query, hkeys]
    -- the endpoint is there to take the document, so that there is no fallback
    have hne : (ring.takers e.key).isEmpty = false := List.isEmpty_eq_false_iff_exists_mem.2 ⟨a, ha⟩
    simpa [resolve, htakers, hne] using ha
  | fallbackDeletion o p => simpa [resolve, hring, Ring.resolver, query] using hall
  | broadcastDeletion o p => simpa [resolve, hring, Ring.resolver, query] using hall
  | plainDeletion p o => simpa [resolve, hring, Ring.resolver, query] using hall

/-- Only the endpoint that takes a document is told to hold it. -/
theorem mem_takers_of_isUpsert (ha : a ∈ (r.resolve e keys d).destinations)
    (hup : (r.entry e keys (r.resolve e keys d).decision).command.isUpsert = true) :
    a ∈ ring.takers e.key := by
  cases d with
  | upsert n o p =>
    have htakers : r.resolver.endpoints (query e keys .upsert) = ring.takers e.key := by
      simp [hring, Ring.resolver, query, hkeys]
    cases hempty : (ring.takers e.key).isEmpty with
    | true =>
      simp [resolve, htakers, hempty, entry, Decision.fallback, Decision.command,
        Command.isUpsert] at hup
    | false => simpa [resolve, htakers, hempty] using ha
  | fallbackDeletion o p => simp [resolve, entry, Decision.command, Command.isUpsert] at hup
  | broadcastDeletion o p => simp [resolve, entry, Decision.command, Command.isUpsert] at hup
  | plainDeletion p o => simp [resolve, entry, Decision.command, Command.isUpsert] at hup

end Ring

end Router

/-! ### A whole run -/

section Run

variable {ι : Type} [DecidableEq ι] {ring : Ring} {d : Desk ι} {moves : List (Move ι)}
  (hring : ∀ r c, .route r c ∈ moves → r.resolver = ring.resolver)

include hring

theorem mem_takers_of_wasTold {key : Bytes} {a : Address} (h : WasTold (d.log moves) key a) :
    a ∈ ring.takers key := by
  obtain ⟨u, hu, x, hx, rfl, hup⟩ := h
  obtain ⟨d', r, c, hmove, rfl⟩ := Desk.exists_of_mem_log hu
  rw [Desk.appended_attempt] at hx
  cases hplan : r.plan? c.event (d'.offer c) with
  | none => simp [Router.postings, hplan] at hx
  | some plan =>
    obtain ⟨keys, dec⟩ := plan
    obtain ⟨ha, rfl⟩ := (Router.mem_entriesTo_postings hplan).1 hx
    exact Router.mem_takers_of_isUpsert (hring r c hmove) _ (Router.newPartition_of_plan? hplan) dec
      ha hup

omit hring in
/-- An entry comes from an event of its document that was routed. -/
theorem routed_of_mem_appended {v : Attempt ι} (hv : v ∈ d.log moves) {a : Address} {z : Entry}
    (hz : z ∈ v.appended a) : v.call.event.key = z.docid ∧ wasRouted v.result = true := by
  obtain ⟨d', r, c, -, rfl⟩ := Desk.exists_of_mem_log hv
  rw [Desk.appended_attempt] at hz
  cases hplan : r.plan? c.event (d'.offer c) with
  | none => simp [Router.postings, hplan] at hz
  | some plan =>
    obtain ⟨keys, dec⟩ := plan
    obtain ⟨-, rfl⟩ := (Router.mem_entriesTo_postings hplan).1 hz
    refine ⟨(Router.taken_key r c.event).symm, ?_⟩
    exact (r.wasRouted_route c.event (d'.offer c) _).trans (by rw [hplan]; rfl)

theorem entry_of_mem_takers {key : Bytes} {a : Address} (ha : a ∈ ring.takers key)
    {v : Attempt ι} (hv : v ∈ d.log moves) (hkey : v.call.event.key = key)
    (hrouted : wasRouted v.result = true) :
    ∃ y ∈ v.appended a, y.docid = key ∧ y.seqno = v.call.event.seqno ∧
      ∀ b, ∀ z ∈ v.appended b, z = y := by
  obtain ⟨d', r, c, hmove, rfl⟩ := Desk.exists_of_mem_log hv
  have hsome := (r.wasRouted_route c.event (d'.offer c) (d'.accumulators c.target)).symm.trans
    hrouted
  obtain ⟨⟨keys, dec⟩, hplan⟩ := Option.isSome_iff_exists.1 hsome
  have hdest : a ∈ (r.resolve (r.taken c.event) keys dec).destinations := by
    refine Router.mem_destinations_of_taker (hring r c hmove) _
      (Router.newPartition_of_plan? hplan) dec ?_
    rw [Router.taken_key]
    exact hkey ▸ ha
  have hentries : ∀ b x, x ∈ (d'.attempt r c).appended b ↔
      b ∈ (r.resolve (r.taken c.event) keys dec).destinations ∧
        x = r.entry (r.taken c.event) keys (r.resolve (r.taken c.event) keys dec).decision := by
    intro b x
    rw [Desk.appended_attempt]
    exact Router.mem_entriesTo_postings hplan
  exact ⟨_, (hentries a _).2 ⟨hdest, rfl⟩, (Router.taken_key r c.event).trans hkey,
    Router.taken_seqno r c.event, fun b z hz => ((hentries b z).1 hz).2⟩

end Run

/-- **No stale entries.** Over a run in which all routers share a ring, whatever else they are and
whatever accumulators and transforms do: an endpoint that is told to hold an entry for a document is
its owner and accepts it, so there is but one; each event of the document that is routed, before or
after, adds an entry for it there; and each removal of the document goes there as well. -/
theorem no_stale_entries {ι : Type} [DecidableEq ι] (ring : Ring) (d : Desk ι)
    (moves : List (Move ι)) (hring : ∀ r c, .route r c ∈ moves → r.resolver = ring.resolver)
    (key : Bytes) (a : Address) (htold : WasTold (d.log moves) key a) :
    (∃ owner, ring.owner key = some owner ∧ owner.accepting = true ∧ owner.address = a) ∧
      (∀ v ∈ d.log moves, v.call.event.key = key → wasRouted v.result = true →
        ∃ y ∈ v.appended a, y.docid = key ∧ y.seqno = v.call.event.seqno) ∧
      ∀ v ∈ d.log moves, ∀ b, ∀ z ∈ v.appended b, z.docid = key → z.command.isRemoval = true →
        z ∈ v.appended a := by
  have ha := mem_takers_of_wasTold hring htold
  refine ⟨Ring.mem_takers.1 ha, fun v hv hkey hrouted => ?_, fun v hv b z hz hdoc _ => ?_⟩
  · obtain ⟨y, hy, hdoc, hseqno, -⟩ := entry_of_mem_takers hring ha hv hkey hrouted
    exact ⟨y, hy, hdoc, hseqno⟩
  · obtain ⟨hkey, hrouted⟩ := routed_of_mem_appended hv hz
    obtain ⟨y, hy, -, -, hsame⟩ := entry_of_mem_takers hring ha hv (hkey.trans hdoc) hrouted
    exact hsame b z hz ▸ hy

/-- Three endpoints, of which one takes nothing new. -/
def Ring.sample : Ring := ⟨[⟨"a", true⟩, ⟨"b", false⟩, ⟨"c", true⟩]⟩

/-- A new version of a document, then, in another accumulator, a version that fails, and a removal
after the first accumulator was drained. -/
def Move.sample : List (Move Bool) :=
  let r := { Router.sample with resolver := Ring.sample.resolver }
  [.route r ⟨{ Event.mutation 0 [8] [1] with seqno := 1 }, true, true⟩,
    .route r ⟨{ Event.mutation 0 [8] [2] with seqno := 2 }, false, true⟩,
    .drain true,
    .route r ⟨{ Event.ofDocument .expiration 0 [8] with seqno := 3 }, true, false⟩]

theorem no_stale_entries_sample :
    let log := (Desk.cleared ⟨[]⟩).log Move.sample
    WasTold log [8] "a" ∧ Ring.sample.owner [8] = some ⟨"a", true⟩ ∧
      ∀ v ∈ log, wasRouted v.result = true →
        ∃ y ∈ v.appended "a", y.docid = [8] ∧ y.seqno = v.call.event.seqno := by
  intro log
  have htold : WasTold log [8] "a" :=
    ⟨_, List.mem_cons_self, ⟨1, [8], 0, .upsert 7 (some [1]) none none⟩, by decide +kernel⟩
  have hring : ∀ r c, .route r c ∈ Move.sample → r.resolver = Ring.sample.resolver := by
    intro r c h
    simp only [Move.sample, List.mem_cons, Move.route.injEq, reduceCtorEq, List.not_mem_nil,
      or_false, false_or] at h
    rcases h with ⟨rfl, -⟩ | ⟨rfl, -⟩ | ⟨rfl, -⟩ <;> rfl
  have hkeys : ∀ v ∈ log, v.call.event.key = [8] := by decide +kernel
  obtain ⟨-, hevents, -⟩ := no_stale_entries Ring.sample (Desk.cleared ⟨[]⟩) _ hring [8] "a" htold
  exact ⟨htold, by decide +kernel, fun v hv => hevents v hv (hkeys v hv)⟩

end IndexFeed
