import IndexFeed.Config.Merge
import IndexFeed.Decimal.Literal
import IndexFeed.Text.Blank
import IndexFeed.Text.Digits

/-!
# Inline values

The value that a short text stands for: a truth value, a number, a text, quoted or not, a list
between brackets, a mapping between braces. A text that has no such form stands for itself. What
reads a part of the characters also gives those that are left.
-/

namespace IndexFeed.Config.Inline

open Schema (Datum)
open Text (isAsciiBlank)

def skipBlank (cs : List Char) : List Char := cs.dropWhile isAsciiBlank

def afterWord? (w cs : List Char) : Option (List Char) :=
  if w.isPrefixOf cs then some (cs.drop w.length) else none

def after? (c : Char) : List Char → Option (List Char)
  | d :: rest => if d = c then some rest else none
  | [] => none

/-! ### Quoted text -/

/-- The character with the number that `count` hexadecimal digits spell. -/
def numbered? (count : Nat) (cs : List Char) : Option (Char × List Char) :=
  ((Text.hexNumber? count cs).bind Text.charOf?).map (·, cs.drop count)

/-- The character that a letter behind a backslash stands for. -/
def letter? (c : Char) : Option Char :=
  if c = '"' || c = '\\' then some c
  else if c = 'b' then some '\x08'
  else if c = 'f' then some '\x0C'
  else if c = 'n' then some '\n'
  else if c = 'r' then some '\r'
  else if c = 't' then some '\t'
  else none

/-- Whether a quoted text may hold `c` as it is. -/
def isPlain (c : Char) : Bool := c = '\t' || (' ' ≤ c && c ≠ '\x7F')

/-- A quoted text, after its opening quote; `fuel` bounds its length. -/
def quotedRest : Nat → List Char → Option (List Char × List Char)
  | 0, _ => none
  | _ + 1, [] => none
  | fuel + 1, c :: cs =>
    if c = '"' then some ([], cs)
    else if c = '\\' then
      match cs with
      | [] => none
      | e :: cs => do
        let (d, cs) ← if e = 'u' then numbered? 4 cs
          else if e = 'U' then numbered? 8 cs
          else (letter? e).map (·, cs)
        let (ds, cs) ← quotedRest fuel cs
        return (d :: ds, cs)
    else if isPlain c then do
      let (ds, cs) ← quotedRest fuel cs
      return (c :: ds, cs)
    else none

def quoted? (cs : List Char) : Option (String × List Char) := do
  let cs ← after? '"' cs
  let (ds, cs) ← quotedRest (cs.length + 1) cs
  return (String.ofList ds, cs)

/-! ### Bare text -/

/-- The whole number that a text is, if 64 bits hold it. -/
def wholeNumber? (cs : List Char) : Option Datum :=
  match Decimal.readInt? cs with
  | some n =>
    if (Decimal.splitSign cs).1 then if -0x8000000000000000 ≤ n then some (.signed n) else none
    else if n < 0x10000000000000000 then some (.unsigned n.toNat) else none
  | none => none

/-- What a text without quotes and brackets stands for: a float if it has a point, a whole number,
or itself. -/
def bare (cs : List Char) : Datum :=
  let float? := if cs.contains '.' then (Decimal.readFloat? cs).map Datum.float else none
  (float? <|> wholeNumber? cs).getD (.text (String.ofList cs))

def isSeparator (c : Char) : Bool :=
  c = ',' || c = '[' || c = ']' || c = '\x7b' || c = '\x7d'

def isNameChar (c : Char) : Bool := c.isAlphanum || c = '_' || c = '-'

def name? (cs : List Char) : Option (String × List Char) :=
  if cs.head? = some '"' then quoted? cs
  else
    let name := cs.takeWhile isNameChar
    if name.isEmpty then none else some (String.ofList name, cs.dropWhile isNameChar)

/-- A value of one character or of one word, or a text. -/
def scalar? (cs : List Char) : Option (Datum × List Char) :=
  match cs with
  | '"' :: _ => (quoted? cs).map fun (s, cs) => (.text s, cs)
  | '\x27' :: c :: cs => (after? '\x27' cs).map (.char c, ·)
  | ['\x27'] => none
  | _ =>
    some (bare (Text.trimBy Text.isBlank (cs.takeWhile (!isSeparator ·))),
      cs.dropWhile (!isSeparator ·))

/-! ### Values -/

mutual

/-- A value with the white space around it; `fuel` bounds the steps. -/
def value? : Nat → List Char → Option (Datum × List Char)
  | 0, _ => none
  | fuel + 1, cs => do
    let cs := skipBlank cs
    let (d, cs) ←
      match afterWord? "true".toList cs, afterWord? "false".toList cs with
      | some cs, _ => some (.flag true, cs)
      | none, some cs => some (.flag false, cs)
      | none, none =>
        match cs with
        | '[' :: cs => (items? fuel cs).map fun (items, cs) => (.sequence items, cs)
        | '\x7b' :: cs => (entries? fuel [] cs).map fun (es, cs) => (.mapping es, cs)
        | cs => scalar? cs
    return (d, skipBlank cs)

/-- The items up to a closing bracket. -/
def items? : Nat → List Char → Option (List Datum × List Char)
  | 0, _ => none
  | fuel + 1, cs =>
    match after? ']' cs with
    | some cs => some ([], cs)
    | none => do
      let (d, cs) ← value? fuel cs
      match after? ',' cs with
      | some cs => do
        let (ds, cs) ← items? fuel cs
        return (d :: ds, cs)
      | none => (after? ']' cs).map ([d], ·)

/-- The entries up to a closing brace, after those of `before`. -/
def entries? : Nat → Entries → List Char → Option (Entries × List Char)
  | 0, _, _ => none
  | fuel + 1, before, cs =>
    match after? '\x7d' cs with
    | some cs => some (before, cs)
    | none => do
      let (name, cs) ← name? (skipBlank cs)
      let cs ← after? '=' (skipBlank cs)
      let (d, cs) ← value? fuel cs
      let es := Entries.put name d before
      match after? ',' cs with
      | some cs => entries? fuel es cs
      | none => (after? '\x7d' cs).map (es, ·)

end

/-- Steps that suffice for `n` characters: each of them begins at most one value and one list. -/
def steps (n : Nat) : Nat := 2 * n + 3

def read (s : String) : Datum :=
  let cs := s.toList
  match value? (steps cs.length) cs with
  | some (d, []) => d
  | _ => .text s

end IndexFeed.Config.Inline
