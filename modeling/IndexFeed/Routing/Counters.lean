/-!
# Counters

What a router counts. Counters are told apart by name and by the deployment they belong to.
-/

namespace IndexFeed

/-- Counts, or by how much counts have grown. -/
structure Counters where
  eventsRouted : Nat := 0
  upserts : Nat := 0
  upsertDeletions : Nat := 0
  deletions : Nat := 0
  fallbackDeletions : Nat := 0
  evaluationFailures : Nat := 0
  droppedOpcodes : Nat := 0
  deriving DecidableEq, Repr

namespace Counters

def zero : Counters := {}

def add (a b : Counters) : Counters where
  eventsRouted := a.eventsRouted + b.eventsRouted
  upserts := a.upserts + b.upserts
  upsertDeletions := a.upsertDeletions + b.upsertDeletions
  deletions := a.deletions + b.deletions
  fallbackDeletions := a.fallbackDeletions + b.fallbackDeletions
  evaluationFailures := a.evaluationFailures + b.evaluationFailures
  droppedOpcodes := a.droppedOpcodes + b.droppedOpcodes

instance : Add Counters := ⟨add⟩

/-- The counts by name, in the order of the names. -/
def byName (c : Counters) : List (String × Nat) := [
  ("transform_router_deletions_total", c.deletions),
  ("transform_router_dropped_opcodes_total", c.droppedOpcodes),
  ("transform_router_evaluation_failures_total", c.evaluationFailures),
  ("transform_router_events_routed_total", c.eventsRouted),
  ("transform_router_fallback_deletions_total", c.fallbackDeletions),
  ("transform_router_upsert_deletions_total", c.upsertDeletions),
  ("transform_router_upserts_total", c.upserts)]

/-- The counts that are not zero, by name. -/
def moved (c : Counters) : List (String × Nat) := c.byName.filter (·.2 ≠ 0)

end Counters

end IndexFeed
