import IndexFeed.Yaml.Tag

/-!
# Tokens

The parts of a YAML text: the marks that are written, scalars and names, and the beginnings and ends
of blocks, which only the indentation shows.
-/

namespace IndexFeed.Yaml

inductive Token where
  | directive (d : Directive)
  | documentStart
  | documentEnd
  | blockSequence
  | blockMapping
  | blockEnd
  | flowSequence
  | flowSequenceEnd
  | flowMapping
  | flowMappingEnd
  /-- The dash in front of an item. -/
  | entry
  /-- The comma between items in brackets. -/
  | comma
  /-- What is in front of a key, written or not. -/
  | key
  /-- The colon in front of a value. -/
  | value
  | alias (name : String)
  | anchor (name : String)
  | tag (t : WrittenTag)
  /-- A text; `plain` tells that it has no quotes and is no block. -/
  | scalar (plain : Bool) (text : String)
  deriving DecidableEq, Repr

end IndexFeed.Yaml
