import IndexFeed.Key.Buffer
import IndexFeed.Schema.Form

/-!
# Feed versions

What the consumers of a feed understand, negotiated in advance. A version understands all that the
versions before it do.
-/

namespace IndexFeed

inductive FeedVersion where
  | sherlock
  | watson
  | vulcan
  deriving DecidableEq, Repr, Inhabited

namespace FeedVersion

/-- The place of a version in their order. -/
def rank : FeedVersion → Nat
  | sherlock => 0
  | watson => 1
  | vulcan => 2

instance : LE FeedVersion := ⟨fun a b => a.rank ≤ b.rank⟩
instance : LT FeedVersion := ⟨fun a b => a.rank < b.rank⟩
instance (a b : FeedVersion) : Decidable (a ≤ b) := inferInstanceAs (Decidable (a.rank ≤ b.rank))
instance (a b : FeedVersion) : Decidable (a < b) := inferInstanceAs (Decidable (a.rank < b.rank))

/-- The current version, which is assumed if none is given. -/
def current : FeedVersion := vulcan

def name : FeedVersion → String
  | sherlock => "sherlock"
  | watson => "watson"
  | vulcan => "vulcan"

def form : Schema.Form FeedVersion :=
  .choice "FeedVersion"
    (.plain "sherlock" sherlock (.plain "watson" watson (.plain "vulcan" vulcan .nil)))

/-- The first version whose consumers can read keys that were written through a buffer. -/
def firstBuffered : FeedVersion := watson

/-- The buffer that transforms are offered under a version. -/
def gate (v : FeedVersion) (buffer : Option Buffer) : Option Buffer :=
  if v < firstBuffered then none else buffer

end FeedVersion

end IndexFeed
