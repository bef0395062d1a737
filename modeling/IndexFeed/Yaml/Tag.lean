import IndexFeed.Text.Digits
import IndexFeed.Text.Utf8
import IndexFeed.Yaml.Cursor

/-!
# Names of nodes

An anchor names a node, and an alias stands for a node by that name. A tag says what a node is; it
is written in full or as a handle and a suffix, where the handle stands for the beginning of the
tag. The directives in front of a document may define handles.
-/

namespace IndexFeed.Yaml

open Text (Bytes)

/-- A tag: the bytes of a URI. -/
abbrev Tag := Bytes

namespace Tag

/-- A tag that begins with an exclamation mark belongs to its document alone. -/
def isLocal (t : Tag) : Bool := t.head? = some 0x21

/-- The name that a tag of its document alone gives: what follows the exclamation mark, or the mark
itself if nothing does. -/
def localName? (t : Tag) : Option String :=
  if t.isLocal then Text.decode? (if t.tail.isEmpty then t else t.tail) else none

/-- The tag of a type that is known to every document. -/
def core (name : String) : Tag := Text.encode ("tag:yaml.org,2002:" ++ name)

end Tag

/-- The handles that are defined, each with what it stands for. -/
abbrev Handles := List (String × Tag)

/-- The handles that every document has, unless it defines them itself. -/
def standardHandles : Handles := [("!", Text.encode "!"), ("!!", Tag.core "")]

/-- A tag as it is written. Without a handle the suffix is the whole tag. -/
structure WrittenTag where
  handle : Option String
  suffix : Bytes
  deriving DecidableEq, Repr

/-- The tag that is meant, if its handle is defined. -/
def WrittenTag.resolve? (t : WrittenTag) (handles : Handles) : Option Tag :=
  match t.handle with
  | some h => (handles.lookup h).map (· ++ t.suffix)
  | none => some t.suffix

/-! ### Tags -/

/-- A character of URIs, apart from the percent sign. -/
def isUriChar (c : Char) : Bool := isWordChar c || ";/?:@&=+$.!~*'()".toList.contains c

/-- A byte that is written as a percent sign and two digits. -/
def readByte (c : Cursor) : Option (UInt8 × Cursor) :=
  if c.sees '%' then
    (Text.hexNumber? 2 (c.rest.drop 1)).map fun n => (UInt8.ofNat n, c.skip 3)
  else none

/-- The number of bytes that follow the first byte of a character. -/
def tailCount? (b : UInt8) : Option Nat :=
  if b < 0x80 then some 0
  else if b < 0xC0 then none
  else if b < 0xE0 then some 1
  else if b < 0xF0 then some 2
  else if b < 0xF8 then some 3
  else none

/-- So many written bytes from the middle of a character. -/
def readTail : Nat → Cursor → Option (Bytes × Cursor)
  | 0, c => some ([], c)
  | n + 1, c => do
    let (b, c) ← readByte c
    if !Text.isTail b then none
    let (bs, c) ← readTail n c
    return (b :: bs, c)

/-- The bytes that come next of a URI; inside brackets or a directive it may hold commas and square
brackets. -/
def readUri (bracketed : Bool) : List Char → Cursor → Option (Bytes × Cursor)
  | [], c => some ([], c)
  | _ :: fuel, c =>
    match c.peek with
    | none => some ([], c)
    | some ch =>
      if ch = '%' then do
        let (b, c) ← readByte c
        let (tail, c) ← (tailCount? b).bind (readTail · c)
        let (bs, c) ← readUri bracketed fuel c
        return (b :: tail ++ bs, c)
      else if isUriChar ch || (bracketed && (ch = ',' || ch = '[' || ch = ']')) then do
        let (bs, c) ← readUri bracketed fuel (c.skip 1)
        return (Text.encodeChar ch ++ bs, c)
      else some ([], c)

/-- The bytes of a URI that count: those in front of a zero byte, if there is one. -/
def meant (bs : Bytes) : Bytes := bs.takeWhile (· ≠ 0)

/-- A URI, of which something is written. -/
def readWholeUri (bracketed : Bool) (c : Cursor) : Option (Bytes × Cursor) := do
  let (bs, c) ← readUri bracketed c.fuel c
  if bs.isEmpty then none else some (meant bs, c)

def readWord (c : Cursor) : String × Cursor :=
  (String.ofList (c.run isWordChar), c.skipWhile isWordChar)

/-- What follows the exclamation mark of a tag: a word that another mark makes a handle, and a
suffix, of which the word is the beginning otherwise. -/
def readShortTag (c : Cursor) : Option (WrittenTag × Cursor) :=
  let (word, next) := readWord c
  if next.sees '!' then
    (readWholeUri false (next.skip 1)).map fun (uri, c) => (⟨some ("!" ++ word ++ "!"), uri⟩, c)
  else
    (readUri false c.fuel c).map fun (uri, c) =>
      (if (meant uri).isEmpty then ⟨none, Text.encode "!"⟩ else ⟨some "!", meant uri⟩, c)

/-- A tag, from its exclamation mark on. A gap has to follow it, or a comma inside brackets. -/
def readTag (flow : Bool) (c : Cursor) : Option (WrittenTag × Cursor) := do
  let (tag, c) ←
    if "!<".toList.isPrefixOf c.rest then do
      let (uri, c) ← readWholeUri true (c.skip 2)
      if c.sees '>' then some (⟨none, uri⟩, c.skip 1) else none
    else readShortTag (c.skip 1)
  if atGap c.rest || (flow && c.sees ',') then some (tag, c) else none

/-! ### Anchors -/

/-- A character that may follow a name. -/
def endsName (c : Char) : Bool :=
  isBlank c || isBreak c || ['?', ':', ',', ']', '\x7d', '%', '@', '\x60'].contains c

/-- The name of an anchor or an alias, behind its mark. -/
def readName (c : Cursor) : Option (String × Cursor) :=
  let (name, c) := readWord c
  if !name.isEmpty && c.peek.all endsName then some (name, c) else none

/-! ### Directives -/

/-- What a line in front of a document says. -/
inductive Directive where
  /-- The document is written in a version that is understood. -/
  | version
  /-- A handle stands for the beginning of tags. -/
  | handle (name : String) (tag : Tag)
  deriving DecidableEq, Repr

/-- A number of at most nine digits. -/
def readNumber (c : Cursor) : Option (Nat × Cursor) :=
  let ds := c.run Char.isDigit
  if ds.length ≤ 9 then (Text.number? 10 ds).map (·, c.skip ds.length) else none

/-- What follows the name of a version directive: 1.1 or 1.2. -/
def readVersion (c : Cursor) : Option (Directive × Cursor) := do
  let (major, c) ← readNumber c.skipBlanks
  if !c.sees '.' then none
  let (minor, c) ← readNumber (c.skip 1)
  if major = 1 && (minor = 1 || minor = 2) then some (.version, c) else none

/-- What follows the name of a handle directive: the handle and what it stands for. -/
def readHandle (c : Cursor) : Option (Directive × Cursor) := do
  let c := c.skipBlanks
  if !c.sees '!' then none
  let (word, c) := readWord (c.skip 1)
  let named := c.sees '!'
  if !named && !word.isEmpty then none
  let c := if named then c.skip 1 else c
  if !c.peek.any isBlank then none
  let (tag, c) ← readWholeUri true c.skipBlanks
  if atGap c.rest then some (.handle ("!" ++ word ++ (if named then "!" else "")) tag, c) else none

/-- A directive, from its percent sign to the end of its line. -/
def readDirective (c : Cursor) : Option (Directive × Cursor) := do
  let (name, c) := readWord (c.skip 1)
  if !atGap c.rest then none
  let (d, c) ←
    if name = "YAML" then readVersion c else if name = "TAG" then readHandle c else none
  let c := c.skipBlanks.skipComment
  if atLineEnd c.rest then some (d, c.skipBreak) else none

/-- The handles that the directives in front of a document define, on top of `handles`; the version
is given at most once and each handle defined at most once. -/
def handlesOf (ds : List Directive) : Option Handles :=
  let defined := ds.filterMap fun
    | .handle name tag => some (name, tag)
    | .version => none
  let names := defined.map Prod.fst
  if 1 < ds.count .version || names.eraseDups.length < names.length then none
  else some (defined ++ standardHandles)

end IndexFeed.Yaml
