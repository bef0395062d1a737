import IndexFeed.Batch.Entry
import IndexFeed.Routing.Resolver

/-!
# Accumulators

Entries gathered by endpoint. The record of an endpoint begins when the endpoint is first seen,
keeps the stamp it began with, and holds its entries in the order they came.
-/

namespace IndexFeed

/-- Where entries came from. -/
structure Stamp where
  source : String
  partition : UInt16
  epoch : UInt64
  deriving DecidableEq, Repr

def Stamp.members (s : Stamp) : Json.Members := [
  ("source", .text s.source),
  ("partition_id", .int (.ofUInt16 s.partition)),
  ("partition_epoch", .int (.ofUInt64 s.epoch))]

/-- The entries for one endpoint. -/
structure Record where
  stamp : Stamp
  entries : List Entry
  deriving DecidableEq, Repr

def Record.toJson (r : Record) : Json.Value :=
  .object (r.stamp.members ++ [("entries", .array (r.entries.map Entry.toJson))])

/-- The records of endpoints, in the order the endpoints were first seen. -/
structure Accumulator where
  records : List (Address × Record)
  deriving DecidableEq, Repr

namespace Accumulator

def empty : Accumulator := ⟨[]⟩

instance : Inhabited Accumulator := ⟨empty⟩

/-- Records with one more entry for `a`; a record that begins with it gets `stamp`. -/
def insert (a : Address) (stamp : Stamp) (e : Entry) :
    List (Address × Record) → List (Address × Record)
  | [] => [(a, ⟨stamp, [e]⟩)]
  | (b, r) :: rest =>
    if b = a then (b, { r with entries := r.entries ++ [e] }) :: rest
    else (b, r) :: insert a stamp e rest

/-- The accumulator with one more entry for `a`. -/
def upsert (acc : Accumulator) (a : Address) (stamp : Stamp) (e : Entry) : Accumulator :=
  ⟨insert a stamp e acc.records⟩

def get? (acc : Accumulator) (a : Address) : Option Record := acc.records.lookup a

/-- The number of endpoints seen. -/
def size (acc : Accumulator) : Nat := acc.records.length

def isEmpty (acc : Accumulator) : Bool := acc.records.isEmpty

def entryCount (acc : Accumulator) : Nat :=
  acc.records.foldr (fun (_, r) n => r.entries.length + n) 0

/-- The records, and the accumulator without them. -/
def drain (acc : Accumulator) : List (Address × Record) × Accumulator := (acc.records, empty)

end Accumulator

end IndexFeed
