import IndexFeed.Event.Basic

/-!
# Resolvers

Which endpoints have to hear of an event. A resolver only knows the event, its keys and the
topology that it was made for.
-/

namespace IndexFeed

open Text (Bytes)

abbrev Address := String

inductive Purpose where
  /-- To take the new version of a document. -/
  | upsert
  /-- To remove what they may still hold of a document. -/
  | upsertDeletion
  /-- To remove a document. -/
  | deletion
  deriving DecidableEq, Repr

def Purpose.name : Purpose → String
  | upsert => "upsert"
  | upsertDeletion => "upsert_deletion"
  | deletion => "deletion"

structure Query where
  purpose : Purpose
  event : Event
  partitionKey : Option Bytes
  /-- Nothing is said of the new key of a document that is deleted. -/
  newKey : Option Bytes
  oldKey : Option Bytes
  deriving DecidableEq, Repr

/-- A resolver lists the endpoints for a question; none means that nobody is there to hear it. -/
structure Resolver where
  endpoints : Query → List Address

end IndexFeed
