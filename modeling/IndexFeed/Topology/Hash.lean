import IndexFeed.Text.Utf8

/-!
# xxHash64

The 64-bit hash of a byte sequence by the xxHash algorithm. Stripes of 32 bytes go through four
lanes; the bytes that are left go in by eights, by a four and one by one.
-/

namespace IndexFeed.Topology

open Text (Bytes)

namespace Hash

def prime1 : UInt64 := 0x9E3779B185EBCA87
def prime2 : UInt64 := 0xC2B2AE3D27D4EB4F
def prime3 : UInt64 := 0x165667B19E3779F9
def prime4 : UInt64 := 0x85EBCA77C2B2AE63
def prime5 : UInt64 := 0x27D4EB2F165667C5

/-- The bits turned to the left, those that fall off coming in on the right. -/
def rotate (x : UInt64) (n : UInt64) : UInt64 := (x <<< n) ||| (x >>> (64 - n))

/-- The number that bytes spell, the least significant one first. -/
def word (bytes : Bytes) : UInt64 := bytes.foldr (fun b w => (w <<< 8) ||| b.toUInt64) 0

/-- Eight bytes into a lane. -/
def round (lane input : UInt64) : UInt64 := rotate (lane + input * prime2) 31 * prime1

/-- The four lanes. -/
structure Lanes where
  a : UInt64
  b : UInt64
  c : UInt64
  d : UInt64

namespace Lanes

/-- The lanes before any input. -/
def start (seed : UInt64) : Lanes := ⟨seed + prime1 + prime2, seed + prime2, seed, seed - prime1⟩

/-- A stripe of 32 bytes into the lanes. -/
def stripe (l : Lanes) (bytes : Bytes) : Lanes where
  a := round l.a (word (bytes.take 8))
  b := round l.b (word ((bytes.drop 8).take 8))
  c := round l.c (word ((bytes.drop 16).take 8))
  d := round l.d (word ((bytes.drop 24).take 8))

/-- A lane into the hash. -/
def merge (hash lane : UInt64) : UInt64 := (hash ^^^ round 0 lane) * prime1 + prime4

/-- The lanes drawn together. -/
def converge (l : Lanes) : UInt64 :=
  [l.a, l.b, l.c, l.d].foldl merge (rotate l.a 1 + rotate l.b 7 + rotate l.c 12 + rotate l.d 18)

/-- All whole stripes into the lanes, and the bytes that are left. -/
def stripes (l : Lanes) (bytes : Bytes) : Lanes × Bytes :=
  if bytes.length < 32 then (l, bytes) else stripes (l.stripe bytes) (bytes.drop 32)
termination_by bytes.length
decreasing_by simp only [List.length_drop]; omega

end Lanes

/-- The bytes that are no whole stripe, the last ones one by one. -/
def tailByOne (hash : UInt64) (bytes : Bytes) : UInt64 :=
  bytes.foldl (fun h b => rotate (h ^^^ (b.toUInt64 * prime5)) 11 * prime1) hash

/-- Four bytes at once, if there are as many. -/
def tailByFour (hash : UInt64) (bytes : Bytes) : UInt64 :=
  if bytes.length < 4 then tailByOne hash bytes
  else
    tailByOne (rotate (hash ^^^ (word (bytes.take 4) * prime1)) 23 * prime2 + prime3)
      (bytes.drop 4)

/-- Eight bytes at once, as long as there are as many. -/
def tailByEight (hash : UInt64) (bytes : Bytes) : UInt64 :=
  if bytes.length < 8 then tailByFour hash bytes
  else
    tailByEight (rotate (hash ^^^ round 0 (word (bytes.take 8))) 27 * prime1 + prime4)
      (bytes.drop 8)
termination_by bytes.length
decreasing_by simp only [List.length_drop]; omega

/-- The bits spread over the whole word. -/
def avalanche (hash : UInt64) : UInt64 :=
  let h := (hash ^^^ (hash >>> 33)) * prime2
  let h := (h ^^^ (h >>> 29)) * prime3
  h ^^^ (h >>> 32)

end Hash

open Hash in
/-- The hash of bytes under a seed. -/
def hash (seed : UInt64) (bytes : Bytes) : UInt64 :=
  let length := UInt64.ofNat bytes.length
  if bytes.length < 32 then avalanche (tailByEight (seed + prime5 + length) bytes)
  else
    let (lanes, rest) := (Lanes.start seed).stripes bytes
    avalanche (tailByEight (lanes.converge + length) rest)

end IndexFeed.Topology
