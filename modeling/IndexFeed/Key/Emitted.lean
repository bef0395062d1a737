import IndexFeed.Json.Printer
import IndexFeed.Key.Buffer

/-!
# Emitted values

A transform emits a tuple of values for a document; the tuple, written as a JSON array, is the
index key. An empty tuple means that the document is not in the index. A key is written into the
buffer that was offered, or on its own, and its bytes are the same either way.
-/

namespace IndexFeed

open Text (Bytes)

/-- A value of a tuple. -/
inductive Emitted where
  | text (s : String)
  | integer (n : Int64)
  | float (x : Float)
  | flag (b : Bool)
  | undefined
  | array (items : List Emitted)
  /-- Pairs of a key and a value, in order. -/
  | map (pairs : List (Emitted × Emitted))
  /-- A value that is kept as JSON. -/
  | object (v : Json.Value)
  deriving Inhabited

namespace Emitted

mutual

/-- The JSON value of an emitted one. A map is a list of pairs, since its keys need not be texts. -/
def toJson : Emitted → Json.Value
  | text s => .text s
  | integer n => .int (.ofInt64 n)
  | float x => .float x
  | flag b => .bool b
  | undefined => .null
  | array items => .array (itemsToJson items)
  | map pairs => .array (pairsToJson pairs)
  | object v => v

def itemsToJson : List Emitted → List Json.Value
  | [] => []
  | e :: rest => e.toJson :: itemsToJson rest

def pairsToJson : List (Emitted × Emitted) → List Json.Value
  | [] => []
  | (k, v) :: rest => .array [k.toJson, v.toJson] :: pairsToJson rest

end

/-- An integer of 64 bits with a sign, and as a float otherwise. -/
def ofInt (n : Json.WireInt) : Emitted :=
  if n.val < 0x8000000000000000 then integer (Int64.ofInt n.val) else float (Float.ofInt n.val)

mutual

/-- The emitted value that a JSON value stands for; an object is kept as it is. -/
def ofJson : Json.Value → Emitted
  | .null => undefined
  | .bool b => flag b
  | .int n => ofInt n
  | .float x => float x
  | .text s => text s
  | .array items => array (ofJsonItems items)
  | .object members => object (.object members)

def ofJsonItems : List Json.Value → List Emitted
  | [] => []
  | v :: rest => ofJson v :: ofJsonItems rest

end

end Emitted

/-- The values that a transform emits for a document. -/
abbrev EmittedTuple := List Emitted

namespace EmittedTuple

def print (tuple : EmittedTuple) : Bytes := (Json.Value.array (Emitted.itemsToJson tuple)).print

/-- The key of a tuple, with an allocation of its own. -/
def encode (tuple : EmittedTuple) : Option Bytes :=
  if tuple.isEmpty then none else some tuple.print

/-- The key of a tuple, written into a buffer; also gives the buffer that is left. An empty tuple
leaves the buffer alone. -/
def encodeInto (buffer : Buffer) (tuple : EmittedTuple) : Option Bytes × Buffer :=
  if tuple.isEmpty then (none, buffer)
  else
    let (key, buffer) := (buffer.clear.write tuple.print).split
    (some key, buffer)

/-- The key of a tuple, written into the buffer if there is one. -/
def encodeWith (buffer : Option Buffer) (tuple : EmittedTuple) : Option Bytes :=
  match buffer with
  | some b => (encodeInto b tuple).1
  | none => encode tuple

end EmittedTuple

end IndexFeed
