import IndexFeed.Routing.Version

/-!
# Definitions

The deployment of a transform, and the configuration of a router for it, with their forms.
-/

namespace IndexFeed

/-- The deployment of a transform over a source collection. -/
structure Definition where
  source : String
  instanceId : UInt64
  functionName : String := ""
  /-- Whether a removed document that still has extended attributes stays in the index. -/
  retainDeletedXattr : Bool := false
  deriving DecidableEq, Repr

namespace Definition

def form : Schema.Form Definition :=
  .record "TransformDefinition"
    (.cons "source" .text none (.cons "instance_id" (.word .long) none
      (.cons "function_name" .text (some "") (.cons "retain_deleted_xattr" .flag (some false)
        .nil))))
    fun (source, instanceId, functionName, retainDeletedXattr, ()) =>
      { source, instanceId, functionName, retainDeletedXattr }

end Definition

/-- What becomes of events that a router does not handle. -/
inductive UnknownOpcodes where
  /-- They are skipped and counted. -/
  | drop
  /-- They are errors. -/
  | reject
  deriving DecidableEq, Repr, Inhabited

namespace UnknownOpcodes

def name : UnknownOpcodes → String
  | drop => "drop"
  | reject => "reject"

def form : Schema.Form UnknownOpcodes :=
  .choice "UnknownOpcodePolicy" (.plain "drop" drop (.plain "reject" reject .nil))

end UnknownOpcodes

structure RouterSettings where
  definition : Definition
  feedVersion : FeedVersion := .current
  unknownOpcodes : UnknownOpcodes := .drop
  deriving DecidableEq, Repr

namespace RouterSettings

def form : Schema.Form RouterSettings :=
  .record "RouterConfiguration"
    (.cons "definition" Definition.form none
      (.cons "feed_version" FeedVersion.form (some .current)
        (.cons "unknown_opcodes" UnknownOpcodes.form (some .drop) .nil)))
    fun (definition, feedVersion, unknownOpcodes, ()) =>
      { definition, feedVersion, unknownOpcodes }

end RouterSettings

end IndexFeed
