import IndexFeed.Yaml.ScalarText
import IndexFeed.Yaml.Token

/-!
# Layout

Outside of brackets the indentation says where a block begins and ends. A key of one line needs no
mark in front of it: only the colon behind it shows that it is one, so its mark is put before it
then, and before that the beginning of a mapping if the key is indented more than what surrounds it.
-/

namespace IndexFeed.Yaml

/-- A place where a key without a mark may have begun. -/
structure Candidate where
  /-- Whether nothing but a key may stand there. -/
  required : Bool
  /-- The number of tokens in front of it. -/
  place : Nat
  index : Nat
  line : Nat
  column : Nat
  deriving Repr

/-- The greatest distance of the colon from the beginning of its key, in bytes. -/
def Candidate.reach : Nat := 1024

/-- Whether a colon at `c` is too far away or on another line. -/
def Candidate.isStale (k : Candidate) (c : Cursor) : Bool :=
  k.line < c.line || k.index + reach < c.index

/-- What has been read of a text. -/
structure Layout where
  cursor : Cursor
  tokens : Array Token := #[]
  /-- The columns of the open blocks, the innermost first. -/
  indents : List Nat := []
  /-- Where a key may have begun. -/
  candidate : Option Candidate := none
  /-- The same for what is around each open bracket, the innermost first. -/
  outer : List (Option Candidate) := []
  /-- Whether a key may begin here. -/
  keyAllowed : Bool := true
  deriving Repr

namespace Layout

/-- Whether a bracket is open. -/
def inBrackets (s : Layout) : Bool := !s.outer.isEmpty

def emit (s : Layout) (t : Token) (c : Cursor) : Layout :=
  { s with tokens := s.tokens.push t, cursor := c }

/-! ### Blocks -/

/-- Closes the innermost blocks while their columns satisfy `p`. -/
def closeWhile (s : Layout) (p : Nat → Bool) : Layout :=
  if s.inBrackets then s
  else
    { s with
      indents := s.indents.dropWhile p
      tokens := s.tokens ++ Array.replicate (s.indents.takeWhile p).length Token.blockEnd }

/-- Opens a block with the token `t` at a place, if its column is right of the innermost block. -/
def openBlock (s : Layout) (column place : Nat) (t : Token) : Layout :=
  if s.inBrackets || !s.indents.head?.all (· < column) then s
  else
    { s with
      indents := column :: s.indents
      tokens := s.tokens.insertIdxIfInBounds place t }

/-! ### Keys -/

/-- Gives up the candidate, which must not be a required one. -/
def dropCandidate (s : Layout) : Option Layout :=
  if s.candidate.any Candidate.required then none else some { s with candidate := none }

def offerCandidate (s : Layout) : Option Layout :=
  if s.keyAllowed then
    let c := s.cursor
    s.dropCandidate.map fun s =>
      { s with
        candidate := some {
          required := !s.inBrackets && s.indents.head? = some c.column
          place := s.tokens.size
          index := c.index
          line := c.line
          column := c.column } }
  else some s

/-! ### Gaps -/

/-- Goes on to the next token: past blanks, comments, breaks and a byte order mark at the beginning
of a line. A tab may not stand where a key may begin, outside of brackets. -/
def skipGap : Nat → Layout → Layout
  | 0, s => s
  | fuel + 1, s =>
    let c := s.cursor.skipMark.skipWhile fun ch =>
      ch = ' ' || (ch = '\t' && (s.inBrackets || !s.keyAllowed))
    let c := c.skipComment
    if c.peek.any isBreak then
      skipGap fuel { s with cursor := c.skipBreak, keyAllowed := s.keyAllowed || !s.inBrackets }
    else { s with cursor := c }

/-! ### Marks -/

/-- Ends all blocks, in front of a mark that stands outside of them. -/
def leaveBlocks (s : Layout) : Option Layout :=
  (s.closeWhile fun _ => true).dropCandidate.map fun s => { s with keyAllowed := false }

def readDirective (s : Layout) : Option Layout := do
  let s ← s.leaveBlocks
  let (d, c) ← Yaml.readDirective s.cursor
  return s.emit (.directive d) c

def readDocumentMark (s : Layout) (t : Token) : Option Layout :=
  s.leaveBlocks.map fun s => s.emit t (s.cursor.skip 3)

def openBracket (s : Layout) (t : Token) : Option Layout :=
  s.offerCandidate.map fun s =>
    { s.emit t (s.cursor.skip 1) with
      outer := s.candidate :: s.outer
      candidate := none
      keyAllowed := true }

def closeBracket (s : Layout) (t : Token) : Option Layout :=
  s.dropCandidate.map fun s =>
    { s.emit t (s.cursor.skip 1) with
      outer := s.outer.tail
      candidate := s.outer.head?.join
      keyAllowed := false }

def readComma (s : Layout) : Option Layout :=
  s.dropCandidate.map fun s => { s.emit .comma (s.cursor.skip 1) with keyAllowed := true }

/-- Opens a block here with the token `t`, where a key may begin. Inside brackets there are no
blocks. -/
def openBlockHere (s : Layout) (t : Token) : Option Layout :=
  if s.inBrackets then some s
  else if s.keyAllowed then some (s.openBlock s.cursor.column s.tokens.size t)
  else none

/-- Reads the dash in front of an item. -/
def readEntry (s : Layout) : Option Layout := do
  let s ← s.openBlockHere .blockSequence
  let s ← s.dropCandidate
  return { s.emit .entry (s.cursor.skip 1) with keyAllowed := true }

/-- Reads the question mark in front of a key. -/
def readKey (s : Layout) : Option Layout := do
  let s ← s.openBlockHere .blockMapping
  let s ← s.dropCandidate
  return { s.emit .key (s.cursor.skip 1) with keyAllowed := !s.inBrackets }

def markKey (s : Layout) (k : Candidate) : Layout :=
  let s := { s with tokens := s.tokens.insertIdxIfInBounds k.place .key }
  { s.openBlock k.column k.place .blockMapping with candidate := none, keyAllowed := false }

/-- Reads the colon in front of a value. -/
def readValue (s : Layout) : Option Layout := do
  let alone : Option Layout :=
    (s.openBlockHere .blockMapping).map fun s => { s with keyAllowed := !s.inBrackets }
  let s ←
    match s.candidate with
    | some k =>
      if k.isStale s.cursor then (if k.required then none else alone) else some (s.markKey k)
    | none => alone
  return s.emit .value (s.cursor.skip 1)

/-! ### Names and scalars -/

/-- Offers a key here, behind which none may begin, and reads a token. -/
def readPart (s : Layout) (read : Cursor → Option (Token × Cursor)) : Option Layout := do
  let s ← s.offerCandidate
  let (t, c) ← read s.cursor
  return { s.emit t c with keyAllowed := false }

/-- Reads an anchor or an alias. -/
def readName (s : Layout) (token : String → Token) : Option Layout :=
  s.readPart fun c => (Yaml.readName (c.skip 1)).map fun (name, c) => (token name, c)

def readTag (s : Layout) : Option Layout :=
  s.readPart fun c => (Yaml.readTag s.inBrackets c).map fun (t, c) => (.tag t, c)

def readQuoted (s : Layout) (quote : Char) : Option Layout :=
  s.readPart fun c =>
    (Yaml.readQuoted quote c.fuel #[] (c.skip 1)).map fun (text, c) =>
      (.scalar false (String.ofList text.toList), c)

def readBlock (s : Layout) (folded : Bool) : Option Layout := do
  let s ← s.dropCandidate
  let (text, c) ← Yaml.readBlock folded s.indents.head? (s.cursor.skip 1)
  return { s.emit (.scalar false (String.ofList text.toList)) c with keyAllowed := true }

/-- Reads plain text. Behind it a key may begin if it ends behind a break. -/
def readPlain (s : Layout) : Option Layout := do
  let s ← s.offerCandidate
  let indent := match s.indents.head? with
    | some n => n + 1
    | none => 0
  let c := s.cursor
  let (text, behindBreak, c) ← Yaml.readPlain s.inBrackets indent c.fuel #[] {} c
  return { s.emit (.scalar true (String.ofList text.toList)) c with keyAllowed := behindBreak }

/-! ### Texts -/

/-- A character with which no token begins. -/
def isReserved (c : Char) : Bool := isBlank c || ['|', '>', '%', '@', '\x60'].contains c

/-- Reads the token that begins with `ch`, the next character. -/
def read (s : Layout) (ch : Char) : Option Layout :=
  let c := s.cursor
  let gap := atGap (c.rest.drop 1)
  if c.column = 0 && ch = '%' then s.readDirective
  else if c.atDocumentMark then
    s.readDocumentMark (if ch = '-' then .documentStart else .documentEnd)
  else if ch = '[' then s.openBracket .flowSequence
  else if ch = '\x7b' then s.openBracket .flowMapping
  else if ch = ']' then s.closeBracket .flowSequenceEnd
  else if ch = '\x7d' then s.closeBracket .flowMappingEnd
  else if ch = ',' then s.readComma
  else if ch = '-' && gap then s.readEntry
  else if ch = '?' && (s.inBrackets || gap) then s.readKey
  else if ch = ':' && (s.inBrackets || gap) then s.readValue
  else if ch = '*' then s.readName .alias
  else if ch = '&' then s.readName .anchor
  else if ch = '!' then s.readTag
  else if (ch = '|' || ch = '>') && !s.inBrackets then s.readBlock (ch = '>')
  else if ch = '\x27' || ch = '"' then s.readQuoted ch
  else if isReserved ch then none
  else s.readPlain

/-- Reads all tokens; each of them takes a character, so `fuel` bounds their number. -/
def readAll : Nat → Layout → Option (Array Token)
  | 0, _ => none
  | fuel + 1, s =>
    let s := s.skipGap fuel
    let s := s.closeWhile (s.cursor.column < ·)
    match s.cursor.peek with
    | some ch => (s.read ch).bind (readAll fuel)
    | none => s.leaveBlocks.map Layout.tokens

end Layout

def Token.ofText? (s : String) : Option (List Token) :=
  let cs := s.toList
  if cs.all isAllowed then
    (Layout.readAll (cs.length + 2) { cursor := { rest := cs } }).map Array.toList
  else none

end IndexFeed.Yaml
