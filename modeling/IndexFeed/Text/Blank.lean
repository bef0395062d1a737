/-!
# White space

The characters of the Unicode property `White_Space`, and the texts that hold nothing else.
-/

namespace IndexFeed.Text

/-- The white space of Unicode: a few controls, the space separators, the line and the paragraph
separator. -/
def isBlank (c : Char) : Bool :=
  let n := c.toNat
  (9 ≤ n && n ≤ 13) || n == 0x20 || n == 0x85 || n == 0xA0 || n == 0x1680 ||
    (0x2000 ≤ n && n ≤ 0x200A) || n == 0x2028 || n == 0x2029 || n == 0x202F || n == 0x205F ||
    n == 0x3000

/-- The white space of ASCII text: space, tab, line feed, form feed, carriage return. -/
def isAsciiBlank (c : Char) : Bool :=
  let n := c.toNat
  n == 0x20 || n == 9 || n == 10 || n == 12 || n == 13

/-- `cs` without the characters of `p` at either end. -/
def trimBy (p : Char → Bool) (cs : List Char) : List Char :=
  ((cs.dropWhile p).reverse.dropWhile p).reverse

/-- A text of white space alone, or of nothing. -/
def isBlankText (s : String) : Bool := s.toList.all isBlank

end IndexFeed.Text
