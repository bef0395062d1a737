import IndexFeed.Yaml.Node
import IndexFeed.Yaml.Token

/-!
# Grammar of nodes

Nodes are read from tokens. What may stand for a node hangs on the place: a block begins only
outside of brackets, and a value may be a sequence whose items are not indented. A node of which
nothing is written is an empty scalar.
-/

namespace IndexFeed.Yaml

/-- The tokens still to be read, and the marks of the names that are known. -/
structure Feed where
  tokens : List Token
  names : List (String × Nat) := []

/-- What reads from tokens. -/
abbrev Grammar := StateT Feed Option

inductive Place where
  /-- The top of a document, or an item behind a dash. -/
  | block
  /-- A key or a value outside of brackets. -/
  | member
  /-- Inside brackets. -/
  | flow
  /-- An item in square brackets that is a single key and its value; its mark has been read. -/
  | pair
  deriving DecidableEq, Repr

namespace Grammar

def peek : Grammar (Option Token) := return (← get).tokens.head?

def skip : Grammar Unit := modify fun f => { f with tokens := f.tokens.tail }

def sees (ts : List Token) : Grammar Bool := return (← peek).any ts.contains

/-- Takes the token `t` if it comes next. -/
def take (t : Token) : Grammar Bool := do
  let found ← sees [t]
  if found then skip
  return found

/-- Takes the token `t`, which has to come next. -/
def expect (t : Token) : Grammar Unit := do
  if !(← take t) then failure

/-! ### Properties -/

/-- A mark for a name, from here on. It is the number of the names known before. -/
def declare (name : String) : Grammar Nat := do
  let f ← get
  let mark := f.names.length
  set { f with names := (name, mark) :: f.names.filter (·.1 ≠ name) }
  return mark

def readTag (handles : Handles) : Grammar (Option Tag) := do
  match ← peek with
  | some (.tag t) =>
    skip
    match t.resolve? handles with
    | some tag => return some tag
    | none => failure
  | _ => return none

/-- The mark of the anchor that comes next, if there is one. -/
def readAnchor : Grammar (Option Nat) := do
  match ← peek with
  | some (.anchor name) =>
    skip
    return some (← declare name)
  | _ => return none

/-- The properties that come next: an anchor and a tag in either order. -/
def readProperties (handles : Handles) : Grammar Properties := do
  match ← readAnchor with
  | some mark => return { mark := some mark, tag := ← readTag handles }
  | none =>
    let tag ← readTag handles
    return { mark := ← readAnchor, tag }

/-! ### Sequences and mappings -/

/-- A node, or an empty one if one of the tokens `stops` comes next. -/
def nodeUnless (stops : List Token) (node : Grammar Node) : Grammar Node := do
  if ← sees stops then return .empty {} else node

/-- Items behind dashes. If they are indented, the end of their block follows. -/
def readItems (node : Place → Grammar Node) (indented : Bool) : Nat → Grammar (List Node)
  | 0 => failure
  | fuel + 1 => do
    if ← take .entry then
      let stops := [.entry, .blockEnd] ++ (if indented then [] else [.key, .value])
      let item ← nodeUnless stops (node .block)
      return item :: (← readItems node indented fuel)
    else
      if indented then expect .blockEnd
      return []

def readValue (stops : List Token) (node : Grammar Node) : Grammar Node := do
  if ← take .value then nodeUnless stops node else return .empty {}

def readMembers (node : Place → Grammar Node) : Nat → Grammar (List (Node × Node))
  | 0 => failure
  | fuel + 1 => do
    if ← take .key then
      let stops := [.key, .value, .blockEnd]
      let k ← nodeUnless stops (node .member)
      let v ← readValue stops (node .member)
      return (k, v) :: (← readMembers node fuel)
    else
      expect .blockEnd
      return []

/-- What stands between `node`s in brackets: nothing before the first, a comma before the others,
and the bracket `close` behind the last, where a comma may be left over. -/
def readBracketed {α : Type} (close : Token) (item : Grammar α) : Nat → Bool → Grammar (List α)
  | 0, _ => failure
  | fuel + 1, isFirst => do
    if ← take close then return []
    if !isFirst then expect .comma
    if ← take close then return []
    let a ← item
    return a :: (← readBracketed close item fuel false)

/-- An item in square brackets. -/
def readFlowItem (node : Place → Grammar Node) : Grammar Node := do
  if ← take .key then node .pair else node .flow

/-- The key and the value of a single pair. A token that stands for no key is left out. -/
def readPair (node : Place → Grammar Node) : Grammar (Node × Node) := do
  let k ←
    if ← sees [.value, .comma, .flowSequenceEnd] then do
      skip
      pure (Node.empty {})
    else node .flow
  return (k, ← readValue [.comma, .flowSequenceEnd] (node .flow))

/-- A key and its value in braces. A key that is not marked has no value. -/
def readFlowMember (node : Place → Grammar Node) : Grammar (Node × Node) := do
  if ← take .key then
    let k ← nodeUnless [.value, .comma, .flowMappingEnd] (node .flow)
    return (k, ← readValue [.comma, .flowMappingEnd] (node .flow))
  else return (← node .flow, .empty {})

/-! ### Nodes -/

/-- Reads the scalar or the alias that comes next. -/
def readLeaf (p : Properties) : Grammar Node := do
  match ← peek with
  | some (.alias name) =>
    if p = {} then
      skip
      match (← get).names.lookup name with
      | some mark => return .alias mark
      | none => failure
    else return .empty p
  | some (.scalar plain text) =>
    skip
    return .scalar p plain text
  | _ => if p = {} then failure else return .empty p

/-- The sequence or the mapping that begins here, given how the nodes in it are read. -/
def opened? (place : Place) (p : Properties) (node : Place → Grammar Node) (next : Option Token)
    (fuel : Nat) : Option (Grammar Node) :=
  if place = .pair then some (return .mapping p [← readPair node])
  else
    match next with
    | some .entry =>
      if place = .member then some (return .sequence p (← readItems node false fuel)) else none
    | some .blockSequence =>
      if place = .flow then none
      else some do skip; return .sequence p (← readItems node true fuel)
    | some .blockMapping =>
      if place = .flow then none
      else some do skip; return .mapping p (← readMembers node fuel)
    | some .flowSequence =>
      some do
        skip
        return .sequence p (← readBracketed .flowSequenceEnd (readFlowItem node) fuel true)
    | some .flowMapping =>
      some do
        skip
        return .mapping p (← readBracketed .flowMappingEnd (readFlowMember node) fuel true)
    | _ => none

/-- Reads a node, in which sequences and mappings may be nested so many levels deep; `fuel` bounds
the number of their items and members. -/
def readNode (handles : Handles) (fuel : Nat) : Nat → Place → Grammar Node
  | 0, place => do
    let p ← if place = .pair then pure {} else readProperties handles
    match opened? place p (fun _ => failure) (← peek) 0 with
    | some _ => failure
    | none => readLeaf p
  | levels + 1, place => do
    let p ← if place = .pair then pure {} else readProperties handles
    match opened? place p (readNode handles fuel levels) (← peek) fuel with
    | some node => node
    | none => readLeaf p

end Grammar

end IndexFeed.Yaml
