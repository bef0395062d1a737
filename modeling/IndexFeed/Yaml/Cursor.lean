/-!
# Places in a YAML text

The characters still to be read, with the line and the column they start at. Lines end at any of
the breaks of YAML 1.1; a carriage return and a line feed are one break.
-/

namespace IndexFeed.Yaml

/-- Space or tab. -/
def isBlank (c : Char) : Bool := c = ' ' || c = '\t'

def isBreak (c : Char) : Bool :=
  c = '\n' || c = '\r' || c = '\x85' || c = '\u2028' || c = '\u2029'

/-- A character of names: a letter, a digit, an underscore or a hyphen. -/
def isWordChar (c : Char) : Bool := c.isAlphanum || c = '_' || c = '-'

/-- A character that a YAML text may hold. -/
def isAllowed (c : Char) : Bool :=
  let n := c.toNat
  n = 9 || n = 10 || n = 13 || (0x20 ≤ n && n ≤ 0x7E) || n = 0x85 || (0xA0 ≤ n && n ≤ 0xD7FF) ||
    (0xE000 ≤ n && n ≤ 0xFFFD) || 0x10000 ≤ n

/-- Whether a blank, a break or the end of the text comes next. -/
def atGap : List Char → Bool
  | [] => true
  | c :: _ => isBlank c || isBreak c

/-- Whether a break or the end of the text comes next. -/
def atLineEnd : List Char → Bool
  | [] => true
  | c :: _ => isBreak c

/-- A place in a text. -/
structure Cursor where
  rest : List Char
  /-- The number of bytes before. -/
  index : Nat := 0
  line : Nat := 0
  column : Nat := 0
  deriving Repr

namespace Cursor

/-- A bound for the number of steps that take a character each: an element for each character that
is left, and one more. -/
def fuel (c : Cursor) : List Char := ' ' :: c.rest

def peek (c : Cursor) : Option Char := c.rest.head?

def sees (c : Cursor) (ch : Char) : Bool := c.rest.head? = some ch

/-- The place after the next `n` characters, none of them a break. -/
def skip (c : Cursor) : Nat → Cursor
  | 0 => c
  | n + 1 =>
    match c.rest with
    | [] => c
    | ch :: rest => skip ⟨rest, c.index + ch.utf8Size, c.line, c.column + 1⟩ n

/-- The place at the start of the next line, if a break comes next. -/
def skipBreak (c : Cursor) : Cursor :=
  match c.rest with
  | '\r' :: '\n' :: rest => ⟨rest, c.index + 2, c.line + 1, 0⟩
  | ch :: rest => if isBreak ch then ⟨rest, c.index + ch.utf8Size, c.line + 1, 0⟩ else c
  | [] => c

/-- The text that a break stands for, if one comes next: a line feed, or the separator itself. -/
def breakText (c : Cursor) : List Char :=
  match c.rest with
  | ch :: _ =>
    if ch = '\u2028' || ch = '\u2029' then [ch] else if isBreak ch then ['\n'] else []
  | [] => []

/-- The characters of `p` that come next, which are no breaks. -/
def run (c : Cursor) (p : Char → Bool) : List Char := c.rest.takeWhile p

def skipWhile (c : Cursor) (p : Char → Bool) : Cursor := c.skip (c.run p).length

def skipBlanks (c : Cursor) : Cursor := c.skipWhile isBlank

/-- The place at the end of the line, if a comment comes next. -/
def skipComment (c : Cursor) : Cursor :=
  if c.sees '#' then c.skipWhile (!isBreak ·) else c

/-- The place behind a byte order mark, if a line comes next that begins with one. -/
def skipMark (c : Cursor) : Cursor := if c.column = 0 && c.sees '\uFEFF' then c.skip 1 else c

/-- Whether a line comes next that begins with `mark` as a word. -/
def startsLineWith (c : Cursor) (mark : List Char) : Bool :=
  c.column = 0 && mark.isPrefixOf c.rest && atGap (c.rest.drop mark.length)

/-- Whether a line comes next that begins or ends a document. -/
def atDocumentMark (c : Cursor) : Bool :=
  c.startsLineWith ['-', '-', '-'] || c.startsLineWith ['.', '.', '.']

end Cursor

end IndexFeed.Yaml
