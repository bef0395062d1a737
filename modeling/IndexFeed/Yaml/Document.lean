import IndexFeed.Config.Path
import IndexFeed.Config.Reserved
import IndexFeed.Yaml.Layout
import IndexFeed.Yaml.Node.Grammar
import IndexFeed.Yaml.PlainValue

/-!
# Documents

A text holds one document, whose top is a mapping or empty. A mapping is read as entries: each key
is a scalar and is taken as it is written, and of keys that are written twice the last one stays. A
value with a tag of its document alone stands under the name that the tag gives.
-/

namespace IndexFeed.Yaml

open Config (Entries Path)
open Schema (Datum)

/-- How deep sequences and mappings may be nested. -/
def levels : Nat := 128

/-! ### The document of a text -/

/-- The directives at the front of the tokens, and what follows them. -/
def splitDirectives : List Token → List Directive × List Token
  | .directive d :: rest => (d :: (splitDirectives rest).1, (splitDirectives rest).2)
  | ts => ([], ts)

/-- The node that the tokens hold. The outer absence is a fault; the inner one tells that there is
no document. -/
def documentOf (ts : List Token) : Option (Option Node) :=
  if ts.isEmpty then some none
  else do
    let (ds, rest) := splitDirectives ts
    let handles ← handlesOf ds
    let isMarked := rest.head? = some .documentStart
    if !ds.isEmpty && !isMarked then none
    let rest := if isMarked then rest.tail else rest
    let isNothing := isMarked && match rest with
      | [] | .directive _ :: _ | .documentStart :: _ | .documentEnd :: _ => true
      | _ => false
    let (node, f) ←
      if isNothing then some (Node.empty {}, { tokens := rest })
      else (Grammar.readNode handles (rest.length + 1) levels .block).run { tokens := rest }
    if f.tokens.all (· == .documentEnd) then some (some node) else none

/-! ### Data of nodes -/

/-- Work that may still follow so many aliases. -/
abbrev Following := StateT Nat Option

/-- The node that an alias stands for; any other node stands for itself. -/
def follow (targets : List (Nat × Node)) (n : Node) : Following Node := do
  match n with
  | .alias mark =>
    match ← get, targets.lookup mark with
    | left + 1, some target =>
      set left
      return target
    | _, _ => failure
  | n => return n

def keyOf (targets : List (Nat × Node)) (n : Node) : Following String := do
  match ← follow targets n with
  | .scalar _ _ text => return text
  | _ => failure

/-- The entries of a mapping as they are written, given how its values are read. -/
def entriesOf (targets : List (Nat × Node)) (value : Node → Following Datum)
    (entries : List (Node × Node)) : Following (List (String × Datum)) :=
  entries.mapM fun (k, v) => return (← keyOf targets k, ← value v)

/-- The path that a tag gives: its name is taken up to the first empty part. -/
def pathOf (tag : Option Tag) : Path :=
  match tag.bind Tag.localName? with
  | some name => (Path.ofPointed name.toList).takeWhile (!·.isEmpty)
  | none => []

/-- The datum of a node that is not nested deeper than the levels that are left. -/
def datumOf (targets : List (Nat × Node)) : Nat → Node → Following Datum
  | levels, n => do
    match ← follow targets n, levels with
    | .scalar p plain text, _ =>
      return (pathOf p.tag).nest (← scalarValue? p.tag plain text)
    | .sequence p items, levels + 1 =>
      return (pathOf p.tag).nest (.sequence (← items.mapM (datumOf targets levels)))
    | .mapping p entries, levels + 1 =>
      let written ← entriesOf targets (datumOf targets levels) entries
      return (pathOf p.tag).nest (← Config.Reserved.mapping? written)
    | _, _ => failure

/-- The number of aliases that may be followed in a document: so many for each step of its nodes. -/
def followable (root : Node) : Nat := 100 * root.size

def topEntries (root : Node) : Option Entries :=
  match root with
  | .scalar _ true "" => some []
  | .mapping _ entries =>
    let reading := entriesOf root.targets (datumOf root.targets (levels - 1)) entries
    (reading.run (followable root)).map fun (written, _) => Entries.ofWritten written
  | _ => none

def read? (s : String) : Option Entries := do
  match ← documentOf (← Token.ofText? s) with
  | some root => topEntries root
  | none => return []

end IndexFeed.Yaml
