import IndexFeed.Proofs.Routing.Ownership
import Mathlib.Data.Set.Card

/-!
# Entries per endpoint

A router over a ring puts the entry of an event in once for each mention of an endpoint among those
that hear of it (`postings_of_ring`). The new version of a document has at most one hearer, its
owner. A removal goes to all addresses of the ring, one entry for each mention. So an event adds at
most one entry per endpoint, and counts the endpoints that it adds one for, unless it is a removal
and the ring has an address twice (`one_entry_per_endpoint`), which nothing keeps it from having
(`repeated_address_hears_twice`).
-/

namespace IndexFeed

open Text (Bytes)

/-- The action removes something from the endpoints. -/
def RouteAction.isRemoval : RouteAction → Bool
  | fallbackDeletion | broadcastDeletion | deletion => true
  | upsert | dropped => false

/-- Who hears of an event of a document once it is routed, each as often as the ring mentions it. -/
def Ring.hearers (ring : Ring) (key : Bytes) : RouteAction → List Address
  | .upsert => ring.takers key
  | .fallbackDeletion | .broadcastDeletion | .deletion => ring.addresses
  | .dropped => []

/-! ### Mentions -/

theorem length_eq_ncard_iff {α : Type} [DecidableEq α] {l : List α} :
    l.length = Set.ncard {a | a ∈ l} ↔ l.Nodup := by
  have hset : {a | a ∈ l} = (l.toFinset : Set α) := by
    ext a
    simp
  rw [hset, Set.ncard_coe_finset, List.card_toFinset]
  constructor
  · intro h
    exact List.dedup_eq_self.1 ((List.dedup_sublist l).eq_of_length h.symm)
  · intro h
    rw [h.dedup]

theorem entriesTo_map (addresses : List Address) (stamp : Stamp) (x : Entry) (a : Address) :
    entriesTo a (addresses.map fun b => ⟨b, stamp, x⟩) =
      List.replicate (addresses.count a) x := by
  induction addresses with
  | nil => rfl
  | cons b addresses ih =>
    rw [List.map_cons, entriesTo_cons, ih]
    by_cases hb : b = a
    · subst hb
      rw [if_pos rfl, List.count_cons_self, List.replicate_succ]
    · rw [if_neg hb, List.count_cons_of_ne hb]

namespace Ring

variable (ring : Ring) (key : Bytes)

theorem nodup_takers : (ring.takers key).Nodup := by
  unfold takers
  split
  · split
    · exact List.nodup_singleton _
    · exact List.nodup_nil
  · exact List.nodup_nil

theorem nodup_hearers (action : RouteAction) :
    (ring.hearers key action).Nodup ↔ action.isRemoval = false ∨ ring.addresses.Nodup := by
  cases action with
  | upsert => exact iff_of_true (ring.nodup_takers key) (.inl rfl)
  | dropped => exact iff_of_true List.nodup_nil (.inl rfl)
  | _ => exact (or_iff_right (Bool.false_ne_true ·.symm)).symm

end Ring

/-! ### Routing over a ring -/

namespace Router

theorem entriesOf_route (r : Router) (e : Event) (b : Option Buffer) (acc : Accumulator)
    (a : Address) :
    (r.route e b acc).accumulator.entriesOf a =
      acc.entriesOf a ++ acc.growth (r.route e b acc).accumulator a := by
  rw [growth_route, route_accumulator, Accumulator.entriesOf_putAll]

section Ring

variable {ring : Ring} {r : Router} (hring : r.resolver = ring.resolver)

include hring

theorem destinations_of_ring (e : Event) {keys : Keys} (hkeys : keys.newPartition = none)
    (d : Decision) :
    (r.resolve e keys d).destinations =
      ring.hearers e.key (r.resolve e keys d).decision.action := by
  cases d with
  | upsert n o p =>
    have htakers : r.resolver.endpoints (query e keys .upsert) = ring.takers e.key := by
      simp [hring, Ring.resolver, query, hkeys]
    have hall : r.resolver.endpoints (query e keys .upsertDeletion) = ring.addresses := by
      simp [hring, Ring.resolver, query]
    cases hnone : (ring.takers e.key).isEmpty with
    | true => simp [resolve, htakers, hnone, hall, Decision.fallback, Decision.action, Ring.hearers]
    | false => simp [resolve, htakers, hnone, Decision.action, Ring.hearers]
  | fallbackDeletion o p =>
    simp [resolve, hring, Ring.resolver, query, Decision.action, Ring.hearers]
  | broadcastDeletion o p =>
    simp [resolve, hring, Ring.resolver, query, Decision.action, Ring.hearers]
  | plainDeletion p o =>
    simp [resolve, hring, Ring.resolver, query, Decision.action, Ring.hearers]

variable {e : Event} {b : Option Buffer} {acc : Accumulator} {outcome : RouteOutcome}
  (hok : (r.route e b acc).result = .ok outcome)

include hok

/-- **An event that succeeds is put in for each mention of a hearer**, and its outcome counts the
mentions. -/
theorem postings_of_ring :
    outcome.destinations = (ring.hearers e.key outcome.action).length ∧
      ∃ x, r.postings e b =
        (ring.hearers e.key outcome.action).map fun a => ⟨a, e.stamp r.source, x⟩ := by
  have hroutes := r.routes_route e b acc
  generalize r.route e b acc = out at hok hroutes
  cases hroutes with
  | unhandled hdata =>
    rw [postings, r.plan?_of_not_isData e b hdata]
    unfold unhandled at hok
    split at hok
    · cases hok
      -- nobody hears of the event, so that any entry will do
      exact ⟨rfl, ⟨e.seqno, e.key, e.ctime, .sync⟩, rfl⟩
    · cases hok
  | failed => cases hok
  | @delivered keys q d hkeys hd =>
    cases hok
    have hplan : r.plan? e b = some (keys, d) := by
      rw [r.plan?_of_keys e b hkeys, hd, Option.map_some]
    have hdest := destinations_of_ring hring (r.taken e) (newPartition_of_plan? hplan) d
    rw [taken_key] at hdest
    have hcarried : r.postings e b = r.carriedOut (r.taken e) keys d := by
      rw [postings, hplan]
      rfl
    refine ⟨congrArg List.length hdest,
      r.entry (r.taken e) keys (r.resolve (r.taken e) keys d).decision, ?_⟩
    simp only [hcarried, carriedOut, hdest, taken_stamp]
    rfl

/-- The record of an endpoint grows by one entry for each mention of the endpoint. -/
theorem growth_of_ring :
    ∃ x, ∀ a, acc.growth (r.route e b acc).accumulator a =
      List.replicate ((ring.hearers e.key outcome.action).count a) x := by
  obtain ⟨-, x, hpostings⟩ := postings_of_ring hring hok
  refine ⟨x, fun a => ?_⟩
  rw [growth_route, hpostings, entriesTo_map]

theorem growth_ne_nil_iff {a : Address} :
    acc.growth (r.route e b acc).accumulator a ≠ [] ↔
      a ∈ ring.hearers e.key outcome.action := by
  obtain ⟨x, hgrowth⟩ := growth_of_ring hring hok
  rw [hgrowth, Ne, List.replicate_eq_nil_iff, List.count_eq_zero, not_not]

end Ring

/-- **One entry per endpoint.** Over any ring, an event that succeeds, whatever the transform says
and the accumulator holds, adds the same entry to the record of each endpoint that hears of it, as
often as the ring mentions the endpoint among them, and the outcome counts the mentions. So no
record grows by more than one entry, and the outcome counts the endpoints whose records grew, if and
only if no hearer is mentioned twice; and a hearer can only be mentioned twice when something is
removed and the ring has an address twice. -/
theorem one_entry_per_endpoint (ring : Ring) (r : Router) (hring : r.resolver = ring.resolver)
    (e : Event) (b : Option Buffer) (acc : Accumulator) (outcome : RouteOutcome)
    (hok : (r.route e b acc).result = .ok outcome) :
    let new := (r.route e b acc).accumulator
    let hearers := ring.hearers e.key outcome.action
    (∃ x, ∀ a, new.entriesOf a = acc.entriesOf a ++ List.replicate (hearers.count a) x) ∧
      outcome.destinations = hearers.length ∧
      ((∀ a, (acc.growth new a).length ≤ 1) ↔ hearers.Nodup) ∧
      (outcome.destinations = Set.ncard {a | acc.growth new a ≠ []} ↔ hearers.Nodup) ∧
      (hearers.Nodup ↔ outcome.action.isRemoval = false ∨ ring.addresses.Nodup) := by
  intro new hearers
  obtain ⟨hcount, -⟩ := postings_of_ring hring hok
  obtain ⟨x, hgrowth⟩ := growth_of_ring hring hok
  refine ⟨⟨x, fun a => ?_⟩, hcount, ?_, ?_, ring.nodup_hearers e.key outcome.action⟩
  · rw [← hgrowth, r.entriesOf_route]
  · simp only [new, hgrowth, List.length_replicate, hearers, List.nodup_iff_count_le_one]
  · simp only [new, growth_ne_nil_iff hring hok]
    rw [hcount, length_eq_ncard_iff]

/-- A router that asks a ring. -/
def asking (ring : Ring) : Router := { sample with resolver := ring.resolver }

def removal : Event := { Event.ofDocument .deletion 4 [8] with seqno := 100 }

theorem one_entry_per_endpoint_owner :
    let ring : Ring := .ofAddresses ["a", "a"]
    let e := Event.mutation 0 [8] [1]
    let out := (asking ring).route e none .empty
    out.result = .ok ⟨.upsert, 1⟩ ∧
      ∀ a, (Accumulator.empty.growth out.accumulator a).length ≤ 1 := by
  intro ring e out
  have hok : out.result = .ok ⟨.upsert, 1⟩ := by decide +kernel
  obtain ⟨-, -, hgrowth, -, hnodup⟩ :=
    one_entry_per_endpoint ring (asking ring) rfl e none .empty ⟨.upsert, 1⟩ hok
  exact ⟨hok, hgrowth.2 (hnodup.2 (.inl rfl))⟩

/-- **An address that is given twice hears twice** of a removal: its record grows by two entries,
and the outcome counts two endpoints where there is one. -/
theorem repeated_address_hears_twice :
    let ring : Ring := .ofAddresses ["a", "a"]
    let out := (asking ring).route removal none .empty
    out.result = .ok ⟨.deletion, 2⟩ ∧
      (Accumulator.empty.growth out.accumulator "a").length = 2 ∧
      Set.ncard {a | Accumulator.empty.growth out.accumulator a ≠ []} = 1 := by
  intro ring out
  have hring : (asking ring).resolver = ring.resolver := rfl
  have hok : out.result = .ok ⟨.deletion, 2⟩ := by decide +kernel
  have hone : {a | Accumulator.empty.growth out.accumulator a ≠ []} = {"a"} := by
    ext a
    rw [Set.mem_ofPred_eq, growth_ne_nil_iff hring hok]
    simp [ring, Ring.hearers, Ring.addresses, Ring.ofAddresses]
  exact ⟨hok, by decide +kernel, by rw [hone, Set.ncard_singleton]⟩

end Router

end IndexFeed
