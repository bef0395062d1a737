import IndexFeed.Proofs.Routing.Plan
import Mathlib.Logic.Function.Basic

/-!
# Runs over shared accumulators

Calls to routers share a desk: several accumulators, each call aimed at one of them, and one buffer,
which a call may be offered. Under an oblivious evaluator an accumulator ends up with what the calls
aimed at it put in on their own, in their order (`accumulators_run_calls`). Calls that fail, are
skipped or are aimed elsewhere leave no trace in it, and may be taken out of the run
(`isolation`).
-/

namespace IndexFeed

/-- A call to a router: which event, into which accumulator, and whether the buffer is offered. -/
structure RouteCall (ι : Type) where
  event : Event
  target : ι
  offered : Bool

/-- What is done at a desk: a call to a router, or all records of an accumulator are taken out. -/
inductive Move (ι : Type) where
  | route (r : Router) (c : RouteCall ι)
  | drain (i : ι)

/-- A call that was made and what came of it. -/
structure Attempt (ι : Type) where
  call : RouteCall ι
  result : Except RouteError RouteOutcome
  /-- The entries that the record of each endpoint grew by. -/
  appended : Address → List Entry

/-- What calls to routers share. -/
structure Desk (ι : Type) where
  accumulators : ι → Accumulator
  buffer : Buffer

/-- The entries of `a` in `new` beyond those in `old`. -/
def Accumulator.growth (old new : Accumulator) (a : Address) : List Entry :=
  (new.entriesOf a).drop (old.entriesOf a).length

namespace Desk

variable {ι : Type} [DecidableEq ι]

/-- A desk with nothing in its accumulators. -/
def cleared (b : Buffer) : Desk ι := ⟨fun _ => .empty, b⟩

/-- The buffer as a call gets it. -/
def offer (d : Desk ι) (c : RouteCall ι) : Option Buffer :=
  if c.offered then some d.buffer else none

def call (d : Desk ι) (r : Router) (c : RouteCall ι) : Routed :=
  r.route c.event (d.offer c) (d.accumulators c.target)

def step (d : Desk ι) : Move ι → Desk ι
  | .route r c =>
    { accumulators := Function.update d.accumulators c.target (d.call r c).accumulator
      buffer := (d.call r c).buffer.getD d.buffer }
  | .drain i =>
    { d with accumulators := Function.update d.accumulators i (d.accumulators i).drain.2 }

def run (d : Desk ι) (moves : List (Move ι)) : Desk ι := moves.foldl step d

/-- A call as the records show it. -/
def attempt (d : Desk ι) (r : Router) (c : RouteCall ι) : Attempt ι where
  call := c
  result := (d.call r c).result
  appended := (d.accumulators c.target).growth (d.call r c).accumulator

/-- All calls of a run, in order. -/
def log (d : Desk ι) : List (Move ι) → List (Attempt ι)
  | [] => []
  | .route r c :: moves => d.attempt r c :: (d.step (.route r c)).log moves
  | .drain i :: moves => (d.step (.drain i)).log moves

end Desk

namespace Router

/-- An event that is routed alone, with nothing before it. -/
def alone (r : Router) (e : Event) (offered : Bool) : Routed :=
  r.route e (Buffer.fresh offered) .empty

/-- What an event leaves in an accumulator when it is routed alone. -/
def contribution (r : Router) (e : Event) (offered : Bool) : List Posting :=
  ungrouped (r.alone e offered).accumulator.records

end Router

/-- `Thinned i us cs`: the calls `cs` are those of `us` without some that fail, are skipped or are
aimed at another accumulator than `i`. -/
inductive Thinned {ι : Type} (i : ι) : List (Attempt ι) → List (RouteCall ι) → Prop
  | nil : Thinned i [] []
  | keep {us : List (Attempt ι)} {cs : List (RouteCall ι)} (u : Attempt ι) (h : Thinned i us cs) :
    Thinned i (u :: us) (u.call :: cs)
  | leaveOut {us : List (Attempt ι)} {cs : List (RouteCall ι)} (u : Attempt ι)
      (hu : u.call.target ≠ i ∨ wasRouted u.result = false) (h : Thinned i us cs) :
    Thinned i (u :: us) cs

/-! ### Growth -/

theorem Accumulator.growth_putAll (acc : Accumulator) (xs : List Posting) (a : Address) :
    acc.growth (acc.putAll xs) a = entriesTo a xs := by
  rw [growth, entriesOf_putAll, List.drop_left]

/-- What an event appends is what it puts in. -/
theorem Router.growth_route (r : Router) (e : Event) (b : Option Buffer) (acc : Accumulator)
    (a : Address) : acc.growth (r.route e b acc).accumulator a = entriesTo a (r.postings e b) := by
  rw [route_accumulator]
  exact Accumulator.growth_putAll ..

theorem Desk.appended_attempt {ι : Type} (d : Desk ι) (r : Router) (c : RouteCall ι) (a : Address) :
    (d.attempt r c).appended a = entriesTo a (r.postings c.event (d.offer c)) :=
  r.growth_route ..

/-! ### What a call puts in -/

section Oblivious

variable {ι : Type} {r : Router} (hr : r.evaluator.Oblivious)

theorem Desk.offer_isSome (d : Desk ι) (c : RouteCall ι) :
    (d.offer c).isSome = (Buffer.fresh c.offered).isSome := by
  unfold offer Buffer.fresh
  split <;> rfl

/-- What an event leaves behind is grouped as what it puts in. -/
theorem Router.grouped_contribution (r : Router) (e : Event) (offered : Bool) :
    grouped (r.contribution e offered) = grouped (r.puts e offered) := by
  rw [contribution, alone, route_accumulator, Accumulator.records_putAll_empty, grouped_ungrouped,
    puts]

theorem Router.puts_eq_nil {r : Router} {e : Event} {offered : Bool}
    (h : wasRouted (r.alone e offered).result = false) : r.puts e offered = [] :=
  r.postings_eq_nil _ _ _ h

include hr in
theorem Desk.result_call (d : Desk ι) (c : RouteCall ι) :
    (d.call r c).result = (r.alone c.event c.offered).result :=
  Router.route_result_congr hr _ (d.offer_isSome c) _ _

include hr in
theorem Desk.accumulator_call (d : Desk ι) (c : RouteCall ι) :
    (d.call r c).accumulator = (d.accumulators c.target).putAll (r.puts c.event c.offered) := by
  rw [call, Router.route_accumulator, Router.puts, Router.postings_congr hr _ (d.offer_isSome c)]

/-! ### Runs of one router -/

variable [DecidableEq ι]

/-- The calls that are aimed at `i` put in, one after the other. -/
def putsInto (r : Router) (i : ι) (calls : List (RouteCall ι)) : List Posting :=
  calls.flatMap fun c => if c.target = i then r.puts c.event c.offered else []

include hr in
theorem Desk.accumulators_step (d : Desk ι) (c : RouteCall ι) (i : ι) :
    (d.step (.route r c)).accumulators i = (d.accumulators i).putAll (putsInto r i [c]) := by
  unfold step putsInto
  by_cases h : c.target = i
  · subst h
    simp [d.accumulator_call hr c]
  · simp [Function.update_of_ne (Ne.symm h), h]

include hr in
/-- **What a run adds to an accumulator** is what the calls aimed at it put in on their own. -/
theorem Desk.accumulators_run_calls (d : Desk ι) (calls : List (RouteCall ι)) (i : ι) :
    (d.run (calls.map (.route r))).accumulators i =
      (d.accumulators i).putAll (putsInto r i calls) := by
  induction calls generalizing d with
  | nil => rfl
  | cons c calls ih =>
    have hrun : d.run ((c :: calls).map (.route r)) =
        (d.step (.route r c)).run (calls.map (.route r)) := rfl
    have hputs : putsInto r i (c :: calls) = putsInto r i [c] ++ putsInto r i calls := by
      simp [putsInto]
    rw [hrun, ih, d.accumulators_step hr c i, hputs, Accumulator.putAll_append]

theorem Desk.map_call_log (d : Desk ι) (calls : List (RouteCall ι)) :
    (d.log (calls.map (.route r))).map (·.call) = calls := by
  induction calls generalizing d with
  | nil => rfl
  | cons c calls ih => simp [log, attempt, ih]

include hr in
/-- In a run, each call comes to what it comes to alone. -/
theorem Desk.result_of_mem_log (d : Desk ι) (calls : List (RouteCall ι)) (u : Attempt ι)
    (hu : u ∈ d.log (calls.map (.route r))) :
    u.result = (r.alone u.call.event u.call.offered).result := by
  induction calls generalizing d with
  | nil => cases hu
  | cons c calls ih =>
    rcases List.mem_cons.1 hu with rfl | hu
    · exact d.result_call hr c
    · exact ih _ hu

theorem Thinned.putsInto_eq {i : ι} {us : List (Attempt ι)} {cs : List (RouteCall ι)}
    (h : Thinned i us cs)
    (hus : ∀ u ∈ us, u.result = (r.alone u.call.event u.call.offered).result) :
    putsInto r i cs = putsInto r i (us.map (·.call)) := by
  induction h with
  | nil => rfl
  | keep u h ih =>
    have hrest := ih fun v hv => hus v (List.mem_cons_of_mem _ hv)
    simp only [putsInto, List.map_cons, List.flatMap_cons] at hrest ⊢
    rw [hrest]
  | @leaveOut us cs u hu h ih =>
    have hrest := ih fun v hv => hus v (List.mem_cons_of_mem _ hv)
    have hnone : (if u.call.target = i then r.puts u.call.event u.call.offered else []) = [] := by
      rcases hu with hne | hfail
      · rw [if_neg hne]
      · rw [hus u List.mem_cons_self] at hfail
        rw [Router.puts_eq_nil hfail, ite_self]
    simp only [putsInto, List.map_cons, List.flatMap_cons] at hrest ⊢
    rw [hnone, List.nil_append, hrest]

end Oblivious

/-! ### Isolation -/

/-- **Isolation.** Under an oblivious evaluator, whatever is in the buffer: an accumulator ends up
with the grouping of what the events that were routed into it leave behind when each is routed
alone; every call comes to what it comes to alone; and calls that fail, are skipped or are aimed
elsewhere may be taken out of the run. -/
theorem isolation {ι : Type} [DecidableEq ι] (r : Router) (hr : r.evaluator.Oblivious) (b : Buffer)
    (calls : List (RouteCall ι)) (i : ι) :
    let run := (Desk.cleared b).run (calls.map (.route r))
    let log := (Desk.cleared b).log (calls.map (.route r))
    log.map (·.call) = calls ∧
      (run.accumulators i).records =
        grouped ((log.filter fun u => u.call.target = i ∧ wasRouted u.result).flatMap fun u =>
          r.contribution u.call.event u.call.offered) ∧
      (∀ u ∈ log, u.result = (r.alone u.call.event u.call.offered).result) ∧
      ∀ kept, Thinned i log kept →
        ((Desk.cleared b).run (kept.map (.route r))).accumulators i = run.accumulators i := by
  intro run log
  have hcalls : log.map (·.call) = calls := Desk.map_call_log _ calls
  have halone : ∀ u ∈ log, u.result = (r.alone u.call.event u.call.offered).result :=
    Desk.result_of_mem_log hr _ calls
  have hrun : ∀ cs : List (RouteCall ι),
      ((Desk.cleared b).run (cs.map (.route r))).accumulators i =
        Accumulator.empty.putAll (putsInto r i cs) :=
    fun cs => Desk.accumulators_run_calls hr _ cs i
  refine ⟨hcalls, ?_, halone, fun kept hkept => ?_⟩
  · rw [hrun calls, Accumulator.records_putAll_empty, putsInto, ← hcalls, List.flatMap_map]
    -- what is left out by the filter contributes nothing here: another target, or a failure
    refine (grouped_flatMap_filter _ log (fun u _ hu => ?_) fun u hlog hu => ?_).symm
    · rw [decide_eq_true_iff] at hu
      rw [r.grouped_contribution, if_pos hu.1]
    · by_cases htarget : u.call.target = i
      · have hfail : wasRouted u.result = false := by simpa [htarget] using hu
        rw [halone u hlog] at hfail
        rw [Router.puts_eq_nil hfail, ite_self]
      · rw [if_neg htarget]
  · rw [hrun kept, hkept.putsInto_eq halone, hcalls, ← hrun calls]

/-- A transform that has a key for one body, reports an error for another and breaks down at all
others. It writes what it is asked into the buffer. -/
def Evaluator.sample : Evaluator where
  verdict request _ :=
    if request.body = [1] then .answered (some [1])
    else if request.body = [2] then .failed (.raised "no key")
    else .panicked none
  leaves request b := b.write request.body

/-- A router that knows two endpoints and names one of them twice. -/
def Router.sample : Router where
  settings := { definition := { source := "orders", instanceId := 7 } }
  evaluator := .sample
  resolver := ⟨fun _ => ["a", "b", "a"]⟩

/-- A change, two that fail on either side, one that is skipped, one aimed elsewhere, a deletion. -/
def RouteCall.sample : List (RouteCall Nat) := [
  ⟨.mutation 0 [7] [1], 0, true⟩,
  ⟨.mutation 0 [7] [2], 0, true⟩,
  ⟨{ Event.mutation 0 [7] [1] with oldValue := [3] }, 0, true⟩,
  ⟨.ofDocument (.other 9) 0 [7], 0, false⟩,
  ⟨.mutation 0 [8] [1], 1, false⟩,
  ⟨.ofDocument .deletion 0 [7], 0, true⟩]

theorem isolation_sample :
    let d : Desk Nat := .cleared ⟨[9]⟩
    let log := d.log (RouteCall.sample.map (.route .sample))
    let changed : Entry := ⟨0, [7], 0, .upsert 7 (some [1]) none none⟩
    let removed : Entry := ⟨0, [7], 0, .deletion 7 none none⟩
    Router.sample.evaluator.Oblivious ∧
      log.map (fun u => wasRouted u.result) = [true, false, false, false, true, true] ∧
      ((d.run (RouteCall.sample.map (.route .sample))).accumulators 0).records =
        grouped ((log.filter fun u => u.call.target = 0 ∧ wasRouted u.result).flatMap fun u =>
          Router.sample.contribution u.call.event u.call.offered) ∧
      ((d.run (RouteCall.sample.map (.route .sample))).accumulators 0).records =
        [("a", ⟨⟨"orders", 0, 0⟩, [changed, changed, removed, removed]⟩),
          ("b", ⟨⟨"orders", 0, 0⟩, [changed, removed]⟩)] ∧
      (d.run ([⟨.mutation 0 [7] [1], 0, true⟩, ⟨.ofDocument .deletion 0 [7], 0, true⟩].map
          (.route .sample))).accumulators 0 =
        (d.run (RouteCall.sample.map (.route .sample))).accumulators 0 := by
  have h := isolation Router.sample (fun _ _ _ => rfl) ⟨[9]⟩ RouteCall.sample 0
  refine ⟨fun _ _ _ => rfl, by decide +kernel, h.2.1, by decide +kernel, h.2.2.2 _ ?_⟩
  refine .keep _ (.leaveOut _ (.inr ?_) (.leaveOut _ (.inr ?_) (.leaveOut _ (.inr ?_)
    (.leaveOut _ (.inl ?_) (.keep _ .nil)))))
  all_goals decide +kernel

end IndexFeed
