/-!
# Statistics

What a replay counts.
-/

namespace IndexFeed

/-- The counts of a replay, or of one partition. -/
structure ReplayStats where
  events : Nat := 0
  routed : Nat := 0
  dropped : Nat := 0
  failed : Nat := 0
  lifecycle : Nat := 0
  batches : Nat := 0
  deriving DecidableEq, Repr

namespace ReplayStats

def add (a b : ReplayStats) : ReplayStats where
  events := a.events + b.events
  routed := a.routed + b.routed
  dropped := a.dropped + b.dropped
  failed := a.failed + b.failed
  lifecycle := a.lifecycle + b.lifecycle
  batches := a.batches + b.batches

instance : Add ReplayStats := ⟨add⟩

def sum (xs : List ReplayStats) : ReplayStats := xs.foldr add {}

end ReplayStats

end IndexFeed
