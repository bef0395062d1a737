import IndexFeed.Routing.Router

/-!
# Handles

The place where the current router is found. A new deployment is a new router put in its place; who
holds the old one goes on with it.
-/

namespace IndexFeed

/-- The place of the current router. -/
structure RouterHandle where
  current : Router

namespace RouterHandle

def load (h : RouterHandle) : Router := h.current

/-- Puts `r` in place of the current router: the router that was there, and the place with `r`. -/
def swap (h : RouterHandle) (r : Router) : Router × RouterHandle := (h.current, ⟨r⟩)

end RouterHandle

end IndexFeed
