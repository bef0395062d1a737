import IndexFeed.Text.Digits
import IndexFeed.Yaml.Cursor

/-!
# Texts of scalars

A scalar may go over several lines, and a single break between them is read as a space. Plain text
ends where an indicator or a smaller indentation ends it, quoted text at its quote, a block at a
smaller indentation.
-/

namespace IndexFeed.Yaml

/-! ### Gaps -/

/-- The blanks and breaks between two parts of a scalar. -/
structure Gap where
  /-- The blanks, if there is no break. -/
  blanks : List Char := []
  /-- Whether there is a break. -/
  broken : Bool := false
  /-- The text of the first break; a break that was escaped has none. -/
  first : List Char := []
  /-- The texts of the other breaks. -/
  more : Array Char := #[]
  deriving Repr

/-- What a gap stands for: its blanks, a space for a single break, one break fewer for more. -/
def Gap.text (g : Gap) : List Char :=
  if g.broken then
    if g.first = ['\n'] then (if g.more.isEmpty then [' '] else g.more.toList)
    else g.first ++ g.more.toList
  else g.blanks

/-- Reads on in a gap. `allowsTab` says whether a tab may stand at a column behind a break. -/
def readGap (allowsTab : Nat → Bool) : List Char → Gap → Cursor → Option (Gap × Cursor)
  | [], g, c => some (g, c)
  | _ :: fuel, g, c =>
    let blanks := c.run isBlank
    if g.broken && (blanks.zipIdx c.column).any (fun (b, n) => b = '\t' && !allowsTab n) then none
    else
      let c := c.skip blanks.length
      if c.peek.any isBreak then
        readGap allowsTab fuel
          (if g.broken then { g with more := g.more ++ c.breakText }
            else { broken := true, first := c.breakText })
          c.skipBreak
      else some (if g.broken then g else { g with blanks }, c)

/-! ### Plain text -/

/-- What may not follow a colon inside brackets. -/
def isAfterColon (c : Char) : Bool :=
  c = ',' || c = '?' || c = '[' || c = ']' || c = '\x7b' || c = '\x7d'

/-- A character that ends plain text inside brackets. -/
def isFlowIndicator (c : Char) : Bool :=
  c = ',' || c = '[' || c = ']' || c = '\x7b' || c = '\x7d'

/-- The characters of plain text up to a gap or an indicator. Inside brackets a colon may not stand
right before an indicator. -/
def plainRun (flow : Bool) : List Char → Option (List Char)
  | [] => some []
  | c :: rest =>
    if isBlank c || isBreak c then some []
    else if flow && c = ':' && rest.head?.any isAfterColon then none
    else if c = ':' && atGap rest then some []
    else if flow && isFlowIndicator c then some []
    else (plainRun flow rest).map (c :: ·)

/-- Reads plain text on, after `acc` and a gap; also gives whether it ends behind a break. Outside
of brackets its lines have to be indented to `indent`. -/
def readPlain (flow : Bool) (indent : Nat) :
    List Char → Array Char → Gap → Cursor → Option (Array Char × Bool × Cursor)
  | [], acc, gap, c => some (acc, gap.broken, c)
  | _ :: fuel, acc, gap, c =>
    if c.atDocumentMark || c.sees '#' then some (acc, gap.broken, c)
    else do
      let part ← plainRun flow c.rest
      let (acc, gap) := if part.isEmpty then (acc, gap) else (acc ++ gap.text ++ part, {})
      let c := c.skip part.length
      if !atGap c.rest || c.rest.isEmpty then some (acc, gap.broken, c)
      else
        let (gap, c) ← readGap (fun column => indent ≤ column) c.fuel gap c
        if !flow && c.column < indent then some (acc, gap.broken, c)
        else readPlain flow indent fuel acc gap c

/-! ### Quoted text -/

/-- The character that a letter behind a backslash stands for. -/
def escaped? (c : Char) : Option Char :=
  match c with
  | '0' => some '\x00'
  | 'a' => some '\x07'
  | 'b' => some '\x08'
  | 't' | '\t' => some '\t'
  | 'n' => some '\n'
  | 'v' => some '\x0B'
  | 'f' => some '\x0C'
  | 'r' => some '\r'
  | 'e' => some '\x1B'
  | ' ' | '"' | '/' | '\\' => some c
  | 'N' => some '\x85'
  | '_' => some '\xA0'
  | 'L' => some '\u2028'
  | 'P' => some '\u2029'
  | _ => none

/-- The number of digits behind the letter of a numbered escape. -/
def escapeDigits? (c : Char) : Option Nat :=
  match c with
  | 'x' => some 2
  | 'u' => some 4
  | 'U' => some 8
  | _ => none

/-- The character of an escape, given what follows the backslash, and the length of that. -/
def readEscape (cs : List Char) : Option (Char × Nat) :=
  match cs with
  | [] => none
  | c :: rest =>
    match escapeDigits? c with
    | some count => ((Text.hexNumber? count rest).bind Text.charOf?).map (·, count + 1)
    | none => (escaped? c).map (·, 1)

/-- Reads the characters of quoted text up to a gap or the closing quote `quote`. A break that was
escaped begins a gap. -/
def quotedRun (quote : Char) : List Char → Array Char → Cursor → Option (Array Char × Gap × Cursor)
  | [], _, _ => none
  | _ :: fuel, acc, c =>
    match c.rest with
    | [] => some (acc, {}, c)
    | ch :: rest =>
      if isBlank ch || isBreak ch then some (acc, {}, c)
      else if ch = quote then
        if quote = '\x27' && rest.head? = some '\x27' then
          quotedRun quote fuel (acc.push '\x27') (c.skip 2)
        else some (acc, {}, c)
      else if quote = '"' && ch = '\\' then
        if rest.head?.any isBreak then some (acc, { broken := true }, (c.skip 1).skipBreak)
        else do
          let (d, n) ← readEscape rest
          quotedRun quote fuel (acc.push d) (c.skip (n + 1))
      else quotedRun quote fuel (acc.push ch) (c.skip 1)

/-- Reads quoted text on, after `acc`, up to and with the closing quote. -/
def readQuoted (quote : Char) : List Char → Array Char → Cursor → Option (Array Char × Cursor)
  | [], _, _ => none
  | _ :: fuel, acc, c =>
    if c.atDocumentMark || c.rest.isEmpty then none
    else do
      let (acc, gap, c) ← quotedRun quote c.fuel acc c
      if c.sees quote then some (acc, c.skip 1)
      else
        let (gap, c) ← readGap (fun _ => true) c.fuel gap c
        readQuoted quote fuel (acc ++ gap.text) c

/-! ### Blocks -/

/-- What becomes of the breaks at the end of a block. -/
inductive Chomping where
  | strip
  | clip
  | keep
  deriving DecidableEq, Repr

/-- The sign that chooses the chomping. -/
def chomping? (c : Char) : Option Chomping :=
  if c = '+' then some .keep else if c = '-' then some .strip else none

/-- The digit that gives the indentation of a block. -/
def increment? (c : Char) : Option Nat :=
  if '1' ≤ c ∧ c ≤ '9' then some (c.toNat - '0'.toNat) else none

/-- Reads the header of a block behind its indicator: sign and digit in either order, and nothing
else but a comment. -/
def readBlockHeader (c : Cursor) : Option (Chomping × Option Nat × Cursor) := do
  let (sign, c) := match c.peek.bind chomping? with
    | some s => (some s, c.skip 1)
    | none => (none, c)
  let digit := c.peek.bind increment?
  if digit.isNone && c.peek.any Char.isDigit then none
  let c := if digit.isSome then c.skip 1 else c
  let (sign, c) := match sign, digit, c.peek.bind chomping? with
    | none, some _, some s => (some s, c.skip 1)
    | sign, _, _ => (sign, c)
  let c := c.skipBlanks.skipComment
  if atLineEnd c.rest then some (sign.getD .clip, digit, c.skipBreak) else none

/-- Reads the indentation and the empty lines that come next, up to `indent` columns if that is
known; also gives the deepest column. A tab may not stand there. -/
def readIndentation (indent : Option Nat) :
    List Char → Nat → Array Char → Cursor → Option (Nat × Array Char × Cursor)
  | [], deepest, breaks, c => some (deepest, breaks, c)
  | _ :: fuel, deepest, breaks, c =>
    let spaces := (c.run (· = ' ')).length
    let c := c.skip (match indent with
      | some n => min spaces (n - c.column)
      | none => spaces)
    let deepest := max deepest c.column
    if indent.all (c.column < ·) && c.sees '\t' then none
    else if c.peek.any isBreak then
      readIndentation indent fuel deepest (breaks ++ c.breakText) c.skipBreak
    else some (deepest, breaks, c)

/-- Reads the lines of a block that are indented to `indent`. `acc` has been read, `pending` is the
break before the line and `breaks` are those of the empty lines after it; `wasBlank` tells that the
line before began with a blank. -/
def readBlockLines (folded : Bool) (indent : Nat) :
    List Char → Array Char → List Char → Array Char → Bool → Cursor →
      Option (Array Char × List Char × Array Char × Cursor)
  | [], acc, pending, breaks, _, c => some (acc, pending, breaks, c)
  | _ :: fuel, acc, pending, breaks, wasBlank, c =>
    if c.column ≠ indent || c.rest.isEmpty then some (acc, pending, breaks, c)
    else do
      let isBlankLine := c.peek.any isBlank
      let joint :=
        if folded && pending.head? = some '\n' && !wasBlank && !isBlankLine then
          if breaks.isEmpty then [' '] else []
        else pending
      let line := c.run (!isBreak ·)
      let c := c.skip line.length
      let pending := c.breakText
      let (_, later, c) ← readIndentation (some indent) c.fuel 0 #[] c.skipBreak
      readBlockLines folded indent fuel (acc ++ joint ++ breaks ++ line) pending later isBlankLine c

/-- Reads a block behind its indicator, inside the indentation `outer`. -/
def readBlock (folded : Bool) (outer : Option Nat) (c : Cursor) : Option (Array Char × Cursor) := do
  let (chomping, digit, c) ← readBlockHeader c
  let known := digit.map fun n => outer.getD 0 + n
  let (deepest, breaks, c) ← readIndentation known c.fuel 0 #[] c
  let least := match outer with
    | some n => n + 1
    | none => 1
  let indent := known.getD (max deepest least)
  let (text, pending, breaks, c) ←
    readBlockLines folded indent c.fuel #[] [] breaks false c
  let tail := match chomping with
    | .strip => #[]
    | .clip => pending.toArray
    | .keep => pending.toArray ++ breaks
  some (text ++ tail, c)

end IndexFeed.Yaml
