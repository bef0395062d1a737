import IndexFeed.Key.Projection
import IndexFeed.Routing.Router
import IndexFeed.Topology.Ring

/-!
# Replay settings

The configuration of a replay: that of a router, and beside it the endpoints, the fields that make
up the key, and how often batches are written out.
-/

namespace IndexFeed

structure ReplaySettings where
  router : RouterSettings
  topology : Ring := {}
  /-- The fields of a document that are emitted as its key, in order. -/
  keyFields : List String
  /-- After how many events of a partition its batches are written out; zero leaves them to the
  control events and the end. -/
  flushEvery : UInt64 := 64
  deriving DecidableEq, Repr

namespace ReplaySettings

def form : Schema.Form ReplaySettings :=
  .overlay "ReplayConfiguration"
    (.cons "topology" Ring.form (some {})
      (.cons "key_fields" (.list .text) none (.cons "flush_every" (.word .size) (some 64) .nil)))
    RouterSettings.form
    fun (topology, keyFields, flushEvery, ()) router => { router, topology, keyFields, flushEvery }

/-- The router that a replay goes through. -/
def toRouter (s : ReplaySettings) : Router where
  settings := s.router
  evaluator := Projection.evaluator ⟨s.keyFields⟩
  resolver := s.topology.resolver

end ReplaySettings

end IndexFeed
