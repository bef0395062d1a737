import IndexFeed.Proofs.Routing.Ownership
import Mathlib.Algebra.BigOperators.Group.Finset.Piecewise
import Mathlib.Algebra.GroupWithZero.Nat

/-!
# What the counters of a router say

One call moves the counters by what it came to and by the entries that it put in, kind by kind
(`balances_route`). What balances may be added up (`Balances.add`), and so the counters of a run,
from zero, account for each of its calls and for each entry (`counters_account`), whatever the
accumulators held before and whichever of them the calls are aimed at.
-/

namespace IndexFeed

/-! ### What is counted -/

/-- Whether an endpoint is told to remove what it may still hold of a document. -/
def Command.isUpsertDeletion : Command → Bool
  | .upsertDeletion .. => true
  | _ => false

/-- Whether an endpoint is told to remove a document. -/
def Command.isDeletion : Command → Bool
  | .deletion .. => true
  | _ => false

def wasDropped : Except RouteError RouteOutcome → Bool
  | .ok outcome => outcome.action = .dropped
  | .error _ => false

/-- Whether the transform failed, or broke down, on an event. -/
def hasFailed : Except RouteError RouteOutcome → Bool
  | .ok _ => false
  | .error e => e.isEvaluationFailure

/-- Whether an event was rejected for its opcode. -/
def wasRejected : Except RouteError RouteOutcome → Bool
  | .ok _ => false
  | .error e => !e.isEvaluationFailure

/-- Whether nobody took a new key, and the old one was removed instead. -/
def fellBack : Except RouteError RouteOutcome → Bool
  | .ok outcome => outcome.action = .fallbackDeletion
  | .error _ => false

/-- For how many endpoints an entry was added, as it is told. -/
def destinationsOf : Except RouteError RouteOutcome → Nat
  | .ok outcome => outcome.destinations
  | .error _ => 0

/-- The number of entries in an accumulator whose command `q` holds of. -/
def Accumulator.count (acc : Accumulator) (q : Command → Bool) : Nat :=
  (acc.records.map fun (_, r) => r.entries.countP fun e => q e.command).sum

/-- What counters that were at zero have grown to. -/
def Counters.total (ks : List Counters) : Counters := ks.foldr (· + ·) .zero

namespace Desk

variable {ι : Type} [DecidableEq ι]

/-- All that comes of calls to a router, one after another. -/
def outcomes (r : Router) (d : Desk ι) : List (RouteCall ι) → List Routed
  | [] => []
  | c :: calls => d.call r c :: (d.step (.route r c)).outcomes r calls

/-- What calls put in, one after another. -/
def posted (r : Router) (d : Desk ι) : List (RouteCall ι) → List Posting
  | [] => []
  | c :: calls => r.postings c.event (d.offer c) ++ (d.step (.route r c)).posted r calls

/-- The number of entries in the accumulators `is` whose command `q` holds of. -/
def count (d : Desk ι) (is : Finset ι) (q : Command → Bool) : Nat :=
  ∑ i ∈ is, (d.accumulators i).count q

end Desk

/-- **Counters balance** with what calls came to and with what they put in. -/
structure Balances (k : Counters) (results : List (Except RouteError RouteOutcome))
    (xs : List Posting) : Prop where
  upserts : k.upserts = xs.countP fun x => x.entry.command.isUpsert
  upsertDeletions : k.upsertDeletions = xs.countP fun x => x.entry.command.isUpsertDeletion
  deletions : k.deletions = xs.countP fun x => x.entry.command.isDeletion
  entries : xs.length = k.upserts + k.upsertDeletions + k.deletions
  destinations : xs.length = (results.map destinationsOf).sum
  routed : k.eventsRouted = results.countP wasRouted
  dropped : k.droppedOpcodes = results.countP wasDropped
  failed : k.evaluationFailures = results.countP hasFailed
  fallback : k.fallbackDeletions = results.countP fellBack

theorem Balances.nil : Balances .zero [] [] := by
  constructor <;> rfl

theorem Balances.add {k k' : Counters} {results results' : List (Except RouteError RouteOutcome)}
    {xs xs' : List Posting} (h : Balances k results xs) (h' : Balances k' results' xs') :
    Balances (k + k') (results ++ results') (xs ++ xs') where
  upserts := by rw [List.countP_append, ← h.upserts, ← h'.upserts]; rfl
  upsertDeletions := by rw [List.countP_append, ← h.upsertDeletions, ← h'.upsertDeletions]; rfl
  deletions := by rw [List.countP_append, ← h.deletions, ← h'.deletions]; rfl
  entries := by
    have hsum : (k + k').upserts + (k + k').upsertDeletions + (k + k').deletions =
        (k.upserts + k'.upserts) + (k.upsertDeletions + k'.upsertDeletions) +
          (k.deletions + k'.deletions) := rfl
    rw [hsum, List.length_append, h.entries, h'.entries]
    omega
  destinations := by
    rw [List.length_append, List.map_append, List.sum_append, ← h.destinations, ← h'.destinations]
  routed := by rw [List.countP_append, ← h.routed, ← h'.routed]; rfl
  dropped := by rw [List.countP_append, ← h.dropped, ← h'.dropped]; rfl
  failed := by rw [List.countP_append, ← h.failed, ← h'.failed]; rfl
  fallback := by rw [List.countP_append, ← h.fallback, ← h'.fallback]; rfl

/-! ### One call -/

theorem count_kinds (result : Except RouteError RouteOutcome) :
    [wasRouted result, wasDropped result, hasFailed result, wasRejected result].count true = 1 := by
  cases result with
  | error e => cases e <;> rfl
  | ok outcome =>
    by_cases h : outcome.action = .dropped <;>
      simp [wasRouted, wasDropped, hasFailed, wasRejected, h]

/-- The command of a decision tells which counter grows. -/
theorem Resolution.counters_of_command (resolution : Resolution) (instanceId : UInt64)
    (keys : Keys) :
    let grown (q : Command → Bool) :=
      if q (resolution.decision.command instanceId keys) then resolution.destinations.length else 0
    resolution.counters.upserts = grown Command.isUpsert ∧
      resolution.counters.upsertDeletions = grown Command.isUpsertDeletion ∧
      resolution.counters.deletions = grown Command.isDeletion ∧
      resolution.destinations.length = resolution.counters.upserts +
        resolution.counters.upsertDeletions + resolution.counters.deletions := by
  obtain ⟨decision, destinations, queries⟩ := resolution
  cases decision <;> simp [counters, Decision.command, Command.isUpsert, Command.isUpsertDeletion,
    Command.isDeletion]

namespace Router

variable (r : Router) (e : Event) (b : Option Buffer) (acc : Accumulator)

theorem countP_carriedOut (keys : Keys) (d : Decision) (q : Command → Bool) :
    let resolution := r.resolve e keys d
    (r.carriedOut e keys d).countP (fun x => q x.entry.command) =
      if q (resolution.decision.command r.settings.definition.instanceId keys) then
        resolution.destinations.length
      else 0 := by
  intro resolution
  have hsame : (r.carriedOut e keys d).countP (fun x => q x.entry.command) =
      resolution.destinations.countP fun _ =>
        q (resolution.decision.command r.settings.definition.instanceId keys) :=
    List.countP_map
  rw [hsame]
  cases q (resolution.decision.command r.settings.definition.instanceId keys) <;> simp

theorem length_carriedOut (keys : Keys) (d : Decision) :
    (r.carriedOut e keys d).length = (r.resolve e keys d).destinations.length :=
  List.length_map _

theorem balances_carriedOut (keys : Keys) (d : Decision) :
    let delivered := r.deliver e keys d acc
    Balances delivered.2.2.counters [.ok delivered.1] (r.carriedOut e keys d) := by
  intro delivered
  obtain ⟨hupserts, hupsertDeletions, hdeletions, hentries⟩ :=
    (r.resolve e keys d).counters_of_command r.settings.definition.instanceId keys
  have hlength := r.length_carriedOut e keys d
  refine
    { upserts := hupserts.trans (r.countP_carriedOut e keys d _).symm
      upsertDeletions := hupsertDeletions.trans (r.countP_carriedOut e keys d _).symm
      deletions := hdeletions.trans (r.countP_carriedOut e keys d _).symm
      entries := hlength.trans hentries
      destinations := hlength, routed := ?_, dropped := ?_, failed := ?_, fallback := ?_ }
  all_goals
    simp only [delivered, deliver, Resolution.counters]
    cases (r.resolve e keys d).decision <;> rfl

/-- **Every call balances.** -/
theorem balances_route :
    Balances (r.route e b acc).counters [(r.route e b acc).result] (r.postings e b) := by
  have h := r.routes_route e b acc
  generalize r.route e b acc = out at h
  unfold postings
  cases h with
  | unhandled hdata =>
    rw [r.plan?_of_not_isData e b hdata, unhandled]
    cases r.settings.unknownOpcodes <;> constructor <;> rfl
  | failed hdata hkeys =>
    rw [plan?, hkeys]
    constructor <;> rfl
  | delivered hkeys hd =>
    rw [r.plan?_of_keys e b hkeys, hd]
    exact r.balances_carriedOut (r.taken e) acc _ _

theorem counters_of_wasRejected (h : wasRejected (r.route e b acc).result = true) :
    (r.route e b acc).counters = .zero := by
  have hroutes := r.routes_route e b acc
  generalize r.route e b acc = out at hroutes h
  cases hroutes with
  | unhandled hdata =>
    unfold unhandled at h ⊢
    split at h
    · cases h
    · rfl
  | failed hdata hkeys => cases h
  | delivered hkeys hd => cases h

/-- A failure of the transform is counted as such, and as nothing else. -/
theorem counters_of_hasFailed (h : hasFailed (r.route e b acc).result = true) :
    (r.route e b acc).counters = { evaluationFailures := 1 } := by
  have hroutes := r.routes_route e b acc
  generalize r.route e b acc = out at hroutes h
  cases hroutes with
  | unhandled hdata =>
    unfold unhandled at h
    split at h <;> cases h
  | failed hdata hkeys => rfl
  | delivered hkeys hd => cases h

end Router

/-! ### What accumulators hold -/

namespace Accumulator

variable (acc : Accumulator) (q : Command → Bool)

theorem count_put (x : Posting) :
    (acc.put x).count q = acc.count q + if q x.entry.command then 1 else 0 := by
  obtain ⟨rs⟩ := acc
  unfold put upsert count
  induction rs with
  | nil => simp [insert, List.countP_cons]
  | cons ar rs ih =>
    obtain ⟨a, r⟩ := ar
    by_cases h : a = x.address
    · simp only [insert, h, if_true, List.map_cons, List.sum_cons, List.countP_append,
        List.countP_singleton]
      omega
    · simp only [insert, h, if_false, List.map_cons, List.sum_cons, ih]
      omega

theorem count_putAll (xs : List Posting) :
    (acc.putAll xs).count q = acc.count q + xs.countP fun x => q x.entry.command := by
  induction xs generalizing acc with
  | nil => rfl
  | cons x xs ih =>
    have hcons : acc.putAll (x :: xs) = (acc.put x).putAll xs := rfl
    rw [hcons, ih, count_put, List.countP_cons]
    omega

theorem entryCount_eq : acc.entryCount = acc.count fun _ => true := by
  obtain ⟨rs⟩ := acc
  unfold entryCount count
  induction rs with
  | nil => rfl
  | cons ar rs ih => simp [ih]

end Accumulator

/-! ### A run -/

namespace Desk

variable {ι : Type} (r : Router) (d : Desk ι)

theorem accumulators_call (c : RouteCall ι) :
    (d.call r c).accumulator =
      (d.accumulators c.target).putAll (r.postings c.event (d.offer c)) :=
  r.route_accumulator c.event (d.offer c) (d.accumulators c.target)

variable [DecidableEq ι]

theorem count_step {c : RouteCall ι} {is : Finset ι} (hc : c.target ∈ is) (q : Command → Bool) :
    (d.step (.route r c)).count is q =
      d.count is q + (r.postings c.event (d.offer c)).countP fun x => q x.entry.command := by
  have hupdate : (fun i => ((d.step (.route r c)).accumulators i).count q) =
      Function.update (fun i => (d.accumulators i).count q) c.target
        ((d.call r c).accumulator.count q) := by
    funext i
    by_cases hi : i = c.target
    · subst hi
      simp [step]
    · simp [step, Function.update_of_ne hi]
  unfold count
  rw [hupdate, Finset.sum_update_of_mem hc, d.accumulators_call, Accumulator.count_putAll,
    Finset.sum_eq_add_sum_sdiff_singleton_of_mem hc]
  omega

/-- A run adds what its calls put in. -/
theorem count_run {calls : List (RouteCall ι)} {is : Finset ι} (h : ∀ c ∈ calls, c.target ∈ is)
    (q : Command → Bool) :
    (d.run (calls.map (.route r))).count is q =
      d.count is q + (d.posted r calls).countP fun x => q x.entry.command := by
  induction calls generalizing d with
  | nil => rfl
  | cons c calls ih =>
    obtain ⟨hc, hcalls⟩ := List.forall_mem_cons.1 h
    have hrun : d.run ((c :: calls).map (.route r)) =
        (d.step (.route r c)).run (calls.map (.route r)) := rfl
    rw [hrun, ih _ hcalls, d.count_step r hc, posted, List.countP_append, Nat.add_assoc]

/-- **A run balances**, since each of its calls does. -/
theorem balances_outcomes (calls : List (RouteCall ι)) :
    Balances (.total ((d.outcomes r calls).map (·.counters)))
      ((d.outcomes r calls).map (·.result)) (d.posted r calls) := by
  induction calls generalizing d with
  | nil => exact .nil
  | cons c calls ih =>
    exact (r.balances_route c.event (d.offer c) (d.accumulators c.target)).add (ih _)

theorem length_outcomes (calls : List (RouteCall ι)) :
    (d.outcomes r calls).length = calls.length := by
  induction calls generalizing d with
  | nil => rfl
  | cons c calls ih => exact congrArg (· + 1) (ih _)

theorem exists_of_mem_outcomes {calls : List (RouteCall ι)} {out : Routed}
    (h : out ∈ d.outcomes r calls) : ∃ e b acc, out = r.route e b acc := by
  induction calls generalizing d with
  | nil => cases h
  | cons c calls ih =>
    rcases List.mem_cons.1 h with rfl | h
    · exact ⟨_, _, _, rfl⟩
    · exact ih _ h

theorem accumulators_run_of_not_mem {calls : List (RouteCall ι)} {i : ι}
    (h : i ∉ calls.map (·.target)) :
    (d.run (calls.map (.route r))).accumulators i = d.accumulators i := by
  induction calls generalizing d with
  | nil => rfl
  | cons c calls ih =>
    obtain ⟨hc, hcalls⟩ := List.ne_and_not_mem_of_not_mem_cons h
    exact (ih _ hcalls).trans (Function.update_of_ne hc ..)

theorem entriesOf_prefix_run (calls : List (RouteCall ι)) (i : ι) (a : Address) :
    (d.accumulators i).entriesOf a <+:
      ((d.run (calls.map (.route r))).accumulators i).entriesOf a := by
  induction calls generalizing d with
  | nil => exact List.prefix_rfl
  | cons c calls ih =>
    refine List.IsPrefix.trans ?_ (ih (d.step (.route r c)))
    by_cases hi : i = c.target
    · subst hi
      simp [step, d.accumulators_call, Accumulator.entriesOf_putAll]
    · simp [step, Function.update_of_ne hi]

end Desk

/-- **The counters account for every call and every entry.** Of calls to a router in any order,
aimed at any accumulators: no accumulator loses an entry, and those that calls are aimed at hold, of
each kind, as many entries more as its counter says, together as many as the outcomes tell and as
the accumulators have grown by. Each call was routed, skipped, failed or was rejected, and the other
counters are the numbers of calls that came to these; a rejected call moves no counter, and one that
failed moves no other. -/
theorem counters_account {ι : Type} [DecidableEq ι] (r : Router) (d : Desk ι)
    (calls : List (RouteCall ι)) :
    let run := d.run (calls.map (.route r))
    let outs := d.outcomes r calls
    let results := outs.map (·.result)
    let k := Counters.total (outs.map (·.counters))
    let targets := (calls.map (·.target)).toFinset
    (outs.length = calls.length ∧ (∀ i ∉ targets, run.accumulators i = d.accumulators i) ∧
      ∀ i a, (d.accumulators i).entriesOf a <+: (run.accumulators i).entriesOf a) ∧
    (run.count targets Command.isUpsert = d.count targets Command.isUpsert + k.upserts ∧
      run.count targets Command.isUpsertDeletion =
        d.count targets Command.isUpsertDeletion + k.upsertDeletions ∧
      run.count targets Command.isDeletion = d.count targets Command.isDeletion + k.deletions) ∧
    (k.upserts + k.upsertDeletions + k.deletions = (results.map destinationsOf).sum ∧
      ∑ i ∈ targets, (run.accumulators i).entryCount =
        ∑ i ∈ targets, (d.accumulators i).entryCount +
          (k.upserts + k.upsertDeletions + k.deletions)) ∧
    (k.eventsRouted = results.countP wasRouted ∧ k.droppedOpcodes = results.countP wasDropped ∧
      k.evaluationFailures = results.countP hasFailed ∧
      k.fallbackDeletions = results.countP fellBack) ∧
    ∀ out ∈ outs,
      (wasRejected out.result = true → out.counters = .zero) ∧
      (hasFailed out.result = true → out.counters = { evaluationFailures := 1 }) ∧
      [wasRouted out.result, wasDropped out.result, hasFailed out.result,
        wasRejected out.result].count true = 1 := by
  intro run outs results k targets
  -- all sums come from the balance of the counters with what was posted
  have h : Balances k results (d.posted r calls) := d.balances_outcomes r calls
  have htargets : ∀ c ∈ calls, c.target ∈ targets := by
    intro c hc
    exact List.mem_toFinset.2 (List.mem_map_of_mem hc)
  have hcount : ∀ q : Command → Bool, run.count targets q =
      d.count targets q + (d.posted r calls).countP fun x => q x.entry.command :=
    d.count_run r htargets
  refine ⟨⟨?_, fun i hi => ?_, d.entriesOf_prefix_run r calls⟩, ⟨?_, ?_, ?_⟩, ⟨?_, ?_⟩,
    ⟨h.routed, h.dropped, h.failed, h.fallback⟩, fun out hout => ?_⟩
  · exact d.length_outcomes r calls
  · exact d.accumulators_run_of_not_mem r (mt List.mem_toFinset.2 hi)
  · rw [hcount, h.upserts]
  · rw [hcount, h.upsertDeletions]
  · rw [hcount, h.deletions]
  · rw [← h.entries, h.destinations]
  · simp only [Accumulator.entryCount_eq]
    rw [← h.entries]
    simpa [Desk.count] using hcount fun _ => true
  · obtain ⟨e, b, acc, rfl⟩ := d.exists_of_mem_outcomes r hout
    exact ⟨r.counters_of_wasRejected e b acc, r.counters_of_hasFailed e b acc, count_kinds _⟩

end IndexFeed
