import IndexFeed.Routing.Resolver
import IndexFeed.Schema.Form
import IndexFeed.Topology.Hash

/-!
# Rings

A fixed list of endpoints that share a ring of 64-bit hashes: each owns an equal and contiguous
part. A document belongs to the endpoint whose part holds the hash of its partition key, or of its
own key if it has none. An endpoint that does not accept upserts leaves its documents to nobody.
-/

namespace IndexFeed

open Text (Bytes)

structure Endpoint where
  address : Address
  accepting : Bool := true
  deriving DecidableEq, Repr

def Endpoint.form : Schema.Form Endpoint :=
  .record "EndpointConfiguration"
    (.cons "address" .text none (.cons "accepting" .flag (some true) .nil))
    fun (address, accepting, ()) => { address, accepting }

/-- Endpoints in the order of their parts of the ring. -/
structure Ring where
  endpoints : List Endpoint := []
  deriving DecidableEq, Repr

namespace Ring

def form : Schema.Form Ring :=
  .record "TopologyConfiguration" (.cons "endpoints" (.list Endpoint.form) (some []) .nil)
    fun (endpoints, ()) => { endpoints }

/-- The ring of endpoints that all accept upserts. -/
def ofAddresses (addresses : List Address) : Ring := ⟨addresses.map fun a => { address := a }⟩

def addresses (r : Ring) : List Address := r.endpoints.map (·.address)

def seed : UInt64 := 0

/-- Which of `n` equal parts of the ring holds a hash. -/
def part (n : Nat) (hash : UInt64) : Nat := hash.toNat * n / 0x10000000000000000

/-- The endpoint that owns a key; a ring without endpoints has none. -/
def owner (r : Ring) (key : Bytes) : Option Endpoint :=
  r.endpoints[part r.endpoints.length (Topology.hash seed key)]?

/-- The endpoints that take the new version of a document: its owner, if that accepts upserts. -/
def takers (r : Ring) (key : Bytes) : List Address :=
  match r.owner key with
  | some endpoint => if endpoint.accepting then [endpoint.address] else []
  | none => []

/-- The endpoints for a question. Whatever is to be removed may be anywhere. -/
def resolver (r : Ring) : Resolver where
  endpoints q :=
    match q.purpose with
    | .upsert => r.takers (q.partitionKey.getD q.event.key)
    | .upsertDeletion | .deletion => r.addresses

end Ring

end IndexFeed
