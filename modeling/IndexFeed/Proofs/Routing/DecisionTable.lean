import IndexFeed.Proofs.Routing.Plan

/-!
# The decision table

What is done about a change of a document, in one table: a row for each combination of opcode, keys
and answer of the resolver, with the action, the questions to the resolver, the endpoints that hear
of it and what these are told. No two rows apply to one event (`Table.unique`), what is decided and
resolved is always a row (`table_resolve`), and routing does what the row says and nothing else
(`decision_table`).
-/

namespace IndexFeed

open Text (Bytes)

structure Row where
  action : RouteAction
  /-- The questions to the resolver, in order. -/
  queries : List Query
  /-- The endpoints that hear of the event, one entry for each. -/
  destinations : List Address
  command : Command

namespace Router

/-- **The decision table** of a router, for a change `e` of a document with the new key `n` and the
old key `o`. -/
inductive Table (r : Router) (e : Event) (n o : Option Bytes) : Opcode → Row → Prop
  /-- The document is, or was, in the index, and somebody takes the new key. -/
  | upsert (hkey : n.isSome ∨ o.isSome)
      (htaken : r.resolver.endpoints ⟨.upsert, e, none, n, o⟩ ≠ []) :
    Table r e n o .mutation
      { action := .upsert
        queries := [⟨.upsert, e, none, n, o⟩]
        destinations := r.resolver.endpoints ⟨.upsert, e, none, n, o⟩
        command := .upsert r.settings.definition.instanceId n o none }
  /-- Nobody takes the new key, and all who may hold the old one remove it. -/
  | fallback (hkey : n.isSome ∨ o.isSome)
      (hnone : r.resolver.endpoints ⟨.upsert, e, none, n, o⟩ = []) :
    Table r e n o .mutation
      { action := .fallbackDeletion
        queries := [⟨.upsert, e, none, n, o⟩, ⟨.upsertDeletion, e, none, n, o⟩]
        destinations := r.resolver.endpoints ⟨.upsertDeletion, e, none, n, o⟩
        command := .upsertDeletion r.settings.definition.instanceId o none }
  /-- The document is not in the index, and all who may hold it remove it. -/
  | broadcast (hnew : n = none) (hold : o = none) :
    Table r e n o .mutation
      { action := .broadcastDeletion
        queries := [⟨.upsertDeletion, e, none, none, none⟩]
        destinations := r.resolver.endpoints ⟨.upsertDeletion, e, none, none, none⟩
        command := .upsertDeletion r.settings.definition.instanceId none none }
  /-- The document is gone; nothing is said of a new key. -/
  | deletion {opcode : Opcode} (hremoval : opcode = .deletion ∨ opcode = .expiration) :
    Table r e n o opcode
      { action := .deletion
        queries := [⟨.deletion, e, none, none, o⟩]
        destinations := r.resolver.endpoints ⟨.deletion, e, none, none, o⟩
        command := .deletion r.settings.definition.instanceId o none }

variable {r : Router} {e : Event} {n o : Option Bytes} {opcode : Opcode}

theorem not_table_keys (hkey : n.isSome ∨ o.isSome) (hnew : n = none) (hold : o = none) :
    False := by
  subst hnew hold
  rcases hkey with h | h <;> cases h

/-- **At most one row applies.** -/
theorem Table.unique {row row' : Row} (h : r.Table e n o opcode row)
    (h' : r.Table e n o opcode row') : row = row' := by
  cases h with
  | upsert hkey htaken => cases h' with
    | upsert => rfl
    | fallback _ hnone => exact absurd hnone htaken
    | broadcast hnew hold => exact (not_table_keys hkey hnew hold).elim
    | deletion hremoval => rcases hremoval with h | h <;> cases h
  | fallback hkey hnone => cases h' with
    | upsert _ htaken => exact absurd hnone htaken
    | fallback => rfl
    | broadcast hnew hold => exact (not_table_keys hkey hnew hold).elim
    | deletion hremoval => rcases hremoval with h | h <;> cases h
  | broadcast hnew hold => cases h' with
    | upsert hkey => exact (not_table_keys hkey hnew hold).elim
    | fallback hkey => exact (not_table_keys hkey hnew hold).elim
    | broadcast => rfl
    | deletion hremoval => rcases hremoval with h | h <;> cases h
  | deletion hremoval => cases h' with
    | deletion => rfl
    | _ => rcases hremoval with h | h <;> cases h

/-- **What is decided and resolved is a row of the table.** -/
theorem table_resolve {d : Decision} (hd : classify opcode { new := n, old := o } = some d) :
    let keys : Keys := { new := n, old := o }
    let resolution := r.resolve e keys d
    r.Table e n o opcode
      { action := resolution.decision.action
        queries := resolution.queries
        destinations := resolution.destinations
        command := resolution.decision.command r.settings.definition.instanceId keys } := by
  cases opcode with
  | mutation =>
    by_cases hkey : n.isSome ∨ o.isSome
    · have hmatches : Keys.matches { new := n, old := o } = true := by
        simpa [Keys.matches] using hkey
      simp only [classify, hmatches, if_true, Option.some.injEq] at hd
      subst hd
      -- an upsert without endpoint falls back to the removal of the broadcast
      by_cases hnone : r.resolver.endpoints ⟨.upsert, e, none, n, o⟩ = []
      · simpa [resolve, query, hnone, Decision.fallback, Decision.action, Decision.command] using
          Table.fallback hkey hnone
      · simpa [resolve, query, hnone, Decision.action, Decision.command] using
          Table.upsert hkey hnone
    · obtain ⟨hnew, hold⟩ : n = none ∧ o = none := by simpa using hkey
      subst hnew hold
      cases hd
      exact .broadcast rfl rfl
  | deletion =>
    cases hd
    exact .deletion (.inl rfl)
  | expiration =>
    cases hd
    exact .deletion (.inr rfl)
  | _ => cases hd

theorem deliver_eq_foldl (keys : Keys) (d : Decision) (acc : Accumulator) :
    let resolution := r.resolve e keys d
    (r.deliver e keys d acc).2.1 = resolution.destinations.foldl
      (fun acc a => acc.upsert a ⟨r.source, e.partition, e.epoch⟩
        ⟨e.seqno, e.key, e.ctime,
          resolution.decision.command r.settings.definition.instanceId keys⟩) acc := rfl

/-- **Routing follows the decision table.** An event whose opcode is not that of a change is skipped
or rejected, and nobody is asked. Otherwise the transform alone is asked if it fails, and nothing is
put in. If it answers, exactly one row of the table applies to the opcode and the keys: the resolver
is asked what the row says, the outcome tells its action and the number of its destinations, and for
each of these, in order, one entry with its command is put in. So each endpoint among the
destinations has that entry behind the ones it had, as often as it is mentioned, in the record that
it had or in one that begins with the stamp of the event; the records of all others stay as they
were. -/
theorem decision_table (r : Router) (e : Event) (b : Option Buffer) (acc : Accumulator) :
    let definition := r.settings.definition
    let opcode := e.routedOpcode definition.retainDeletedXattr
    let asked := computeKeys r.evaluator (prepared e opcode) (r.settings.feedVersion.gate b)
    let out := r.route e b acc
    (opcode.isData = false →
      out.calls = [] ∧ out.queries = [] ∧ out.accumulator = acc ∧
        out.result = match r.settings.unknownOpcodes with
          | .drop => .ok ⟨.dropped, 0⟩
          | .reject => .error (.unknownOpcode e.opcode e.partition e.seqno)) ∧
      (opcode.isData = true → out.calls = asked.2.calls ∧ match asked.1 with
        | .error (side, failure) =>
          out.queries = [] ∧ out.accumulator = acc ∧
            out.result = .error (.keys side failure e.partition e.seqno)
        | .ok keys => ∃ row, r.Table (prepared e opcode) keys.new keys.old opcode row ∧
          (∀ row', r.Table (prepared e opcode) keys.new keys.old opcode row' → row' = row) ∧
          out.queries = row.queries ∧
          out.result = .ok ⟨row.action, row.destinations.length⟩ ∧
          out.accumulator = row.destinations.foldl
            (fun acc a => acc.upsert a ⟨definition.source, e.partition, e.epoch⟩
              ⟨e.seqno, e.key, e.ctime, row.command⟩) acc ∧
          ∀ a, out.accumulator.get? a =
            if a ∈ row.destinations then
              some ⟨(acc.get? a).elim ⟨definition.source, e.partition, e.epoch⟩ (·.stamp),
                acc.entriesOf a ++ List.replicate (row.destinations.count a)
                  ⟨e.seqno, e.key, e.ctime, row.command⟩⟩
            else acc.get? a) := by
  intro definition opcode asked out
  have htaken : prepared e opcode = r.taken e := rfl
  have hasked : r.keysOf e b = asked := rfl
  have hroutes : Routes r e b acc out := r.routes_route e b acc
  generalize out = out at hroutes
  -- one case for each of the ways in which routing ends
  cases hroutes with
  | unhandled hdata =>
    refine ⟨fun _ => ⟨rfl, rfl, rfl, ?_⟩, fun hdata' => ?_⟩
    · unfold unhandled
      cases r.settings.unknownOpcodes <;> rfl
    · exact absurd (hdata'.symm.trans hdata) nofun
  | @failed side failure q hdata hkeys =>
    refine ⟨fun hdata' => ?_, fun _ => ?_⟩
    · exact absurd (hdata'.symm.trans hdata) nofun
    · rw [← hasked, hkeys, r.taken_partition, r.taken_seqno]
      exact ⟨rfl, rfl, rfl, rfl⟩
  | @delivered keys q d hkeys hd =>
    refine ⟨fun hdata' => ?_, fun _ => ?_⟩
    · exact absurd (hdata'.symm.trans (isData_of_classify hd)) nofun
    · have heq : keys = { new := keys.new, old := keys.old } :=
        eq_of_computeKeys (congrArg Prod.fst hkeys)
      rw [heq] at hd
      have hrow := table_resolve (r := r) (e := r.taken e) hd
      rw [← heq] at hrow
      rw [← hasked, hkeys, htaken]
      have hput := deliver_eq_foldl (r := r) (e := r.taken e) keys d acc
      simp only [taken_partition, taken_seqno, taken_key, taken_ctime, taken_epoch] at hput
      refine ⟨rfl, _, hrow, fun row' hrow' => hrow'.unique hrow, rfl, rfl, hput, fun a => ?_⟩
      rw [hput]
      exact Accumulator.get?_foldl_upsert ..

/-- A router whose endpoints take no new keys, but hold old ones. -/
def removing : Router where
  settings := { definition := { source := "orders", instanceId := 7 } }
  evaluator := { verdict := fun request _ => .answered (some request.body) }
  resolver := ⟨fun q => if q.purpose = .upsert then [] else ["a", "b"]⟩

theorem decision_table_fallback :
    let e := { Event.mutation 3 [7] [1] with oldValue := [2] }
    let removed : Entry := ⟨0, [7], 0, .upsertDeletion 7 (some [2]) none⟩
    let out := removing.route e none .empty
    out.queries.map (·.purpose) = [.upsert, .upsertDeletion] ∧
      out.result = .ok ⟨.fallbackDeletion, 2⟩ ∧
      out.accumulator =
        ["a", "b"].foldl (fun acc a => acc.upsert a ⟨"orders", 3, 0⟩ removed) .empty ∧
      out.accumulator.get? "b" = some ⟨⟨"orders", 3, 0⟩, [removed]⟩ ∧
      out.accumulator.get? "c" = none := by
  intro e removed out
  obtain ⟨-, hchange⟩ := decision_table removing e none .empty
  obtain ⟨-, row, -, honly, hqueries, hresult, haccumulator, hrecords⟩ := hchange rfl
  obtain rfl := honly _ (.fallback (.inl rfl) rfl)
  exact ⟨congrArg (List.map _) hqueries, hresult, haccumulator, hrecords "b", hrecords "c"⟩

end Router

end IndexFeed
