/-!
# UTF-8

Bytes are decoded piece by piece. A piece is a character or a maximal ill-formed part: the longest
run of bytes that begins a character without completing it, or a single byte that begins none.
Strict decoding, lossy decoding and the place of the first flaw are all read off the pieces.
-/

namespace IndexFeed.Text

abbrev Bytes := List UInt8

/-- What decoding finds at one place of a byte sequence. -/
inductive Piece where
  /-- A character. -/
  | char (c : Char)
  /-- `size` bytes that the byte after them rules out. -/
  | malformed (size : Nat)
  /-- `size` bytes at the end of the input that begin a character. -/
  | truncated (size : Nat)
  deriving DecidableEq, Repr

namespace Piece

def size : Piece → Nat
  | char c => c.utf8Size
  | malformed n => n
  | truncated n => n

/-- The character of a piece, if it is one. -/
def char? : Piece → Option Char
  | char c => some c
  | _ => none

/-- The character of a piece, with U+FFFD for an ill-formed one. -/
def lossy : Piece → Char
  | char c => c
  | _ => '\uFFFD'

end Piece

/-- A continuation byte. -/
def isTail (b : UInt8) : Bool := 0x80 ≤ b && b ≤ 0xBF

/-- Whether `b` may follow the lead byte `a` of a character of three or four bytes: some leads
narrow the range, to exclude overlong forms, surrogates and numbers beyond U+10FFFF. -/
def isSecond (a b : UInt8) : Bool :=
  if a = 0xE0 then 0xA0 ≤ b && b ≤ 0xBF
  else if a = 0xED then 0x80 ≤ b && b ≤ 0x9F
  else if a = 0xF0 then 0x90 ≤ b && b ≤ 0xBF
  else if a = 0xF4 then 0x80 ≤ b && b ≤ 0x8F
  else isTail b

/-- The six bits that a continuation byte carries. -/
def tailBits (b : UInt8) : Nat := b.toNat % 64

def pieceOfTwo (a : UInt8) : Bytes → Piece
  | [] => .truncated 1
  | b :: _ =>
    if isTail b then .char (Char.ofNat (a.toNat % 32 * 64 + tailBits b)) else .malformed 1

def pieceOfThree (a : UInt8) : Bytes → Piece
  | [] => .truncated 1
  | b :: rest =>
    if isSecond a b then
      match rest with
      | [] => .truncated 2
      | c :: _ =>
        if isTail c then
          .char (Char.ofNat ((a.toNat % 16 * 64 + tailBits b) * 64 + tailBits c))
        else .malformed 2
    else .malformed 1

def pieceOfFour (a : UInt8) : Bytes → Piece
  | [] => .truncated 1
  | b :: rest =>
    if isSecond a b then
      match rest with
      | [] => .truncated 2
      | c :: rest =>
        if isTail c then
          match rest with
          | [] => .truncated 3
          | d :: _ =>
            if isTail d then
              .char (Char.ofNat
                (((a.toNat % 8 * 64 + tailBits b) * 64 + tailBits c) * 64 + tailBits d))
            else .malformed 3
        else .malformed 2
    else .malformed 1

/-- The piece that starts with the byte `a`. -/
def pieceAt (a : UInt8) (rest : Bytes) : Piece :=
  if a < 0x80 then .char (Char.ofNat a.toNat)
  else if 0xC2 ≤ a && a ≤ 0xDF then pieceOfTwo a rest
  else if 0xE0 ≤ a && a ≤ 0xEF then pieceOfThree a rest
  else if 0xF0 ≤ a && a ≤ 0xF4 then pieceOfFour a rest
  else .malformed 1

def pieces : Bytes → List Piece
  | [] => []
  | a :: rest => pieceAt a rest :: pieces (rest.drop ((pieceAt a rest).size - 1))
termination_by bs => bs.length
decreasing_by simp only [List.length_drop, List.length_cons]; omega

def encodeChar (c : Char) : Bytes := String.utf8EncodeChar c

def encode (s : String) : Bytes := s.toList.flatMap encodeChar

/-- The text that the bytes spell, if every piece of them is a character. -/
def decode? (bs : Bytes) : Option String := ((pieces bs).mapM Piece.char?).map String.ofList

/-- The text of the bytes, each ill-formed part shown as one U+FFFD. -/
def decodeLossy (bs : Bytes) : String := String.ofList ((pieces bs).map Piece.lossy)

/-- Where well-formed text ends: the offset of the first ill-formed part and its piece. -/
def firstFlaw (bs : Bytes) : Option (Nat × Piece) :=
  scan 0 (pieces bs)
where
  scan (offset : Nat) : List Piece → Option (Nat × Piece)
    | [] => none
    | .char c :: rest => scan (offset + c.utf8Size) rest
    | flaw :: _ => some (offset, flaw)

end IndexFeed.Text
