import IndexFeed.Decimal.Literal
import IndexFeed.Schema.Datum
import IndexFeed.Text.Digits
import IndexFeed.Yaml.Tag

/-!
# Values of scalars

Plain text is null, a truth value, a number or itself. Whole numbers may be written in base two,
eight or sixteen. A number in base ten has no zero in front: digits behind a zero are a text. Quoted
text is itself. A tag can ask for a type, which the text has to have then.
-/

namespace IndexFeed.Yaml

open Schema (Datum)

def isNull (s : String) : Bool := ["null", "Null", "NULL", "~"].contains s

def flag? (s : String) : Option Bool :=
  if ["true", "True", "TRUE"].contains s then some true
  else if ["false", "False", "FALSE"].contains s then some false
  else none

/-- Digits behind a zero. -/
def isPadded (cs : List Char) : Bool :=
  match cs with
  | '0' :: rest => !rest.isEmpty && rest.all Char.isDigit
  | _ => false

/-- The whole number that a text without a sign spells. -/
def natural? (cs : List Char) : Option Nat :=
  match cs with
  | '0' :: 'x' :: rest => Text.number? 16 rest
  | '0' :: 'o' :: rest => Text.number? 8 rest
  | '0' :: 'b' :: rest => Text.number? 2 rest
  | _ => if isPadded cs then none else Text.number? 10 cs

/-- The whole number that a text spells, if 128 bits hold it. -/
def whole? (cs : List Char) : Option Datum :=
  match cs with
  | '-' :: rest =>
    match natural? rest with
    | some n => if n ≤ 0x80000000000000000000000000000000 then some (.signed (-(n : Int))) else none
    | none => none
  | _ =>
    match natural? (if cs.head? = some '+' then cs.tail else cs) with
    | some n => if n < 0x100000000000000000000000000000000 then some (.unsigned n) else none
    | none => none

def isInfinity (cs : List Char) : Bool :=
  [".inf", ".Inf", ".INF"].contains (String.ofList cs)

/-- The float that a text spells. A finite one may have one sign. -/
def float? (cs : List Char) : Option Float :=
  let unsigned := if cs.head? = some '+' then cs.tail else cs
  if cs.head? = some '+' && (unsigned.head? = some '+' || unsigned.head? = some '-') then none
  else if isInfinity unsigned then some (1.0 / 0.0)
  else if cs.head? = some '-' && isInfinity cs.tail then some (-(1.0 / 0.0))
  else if [".nan", ".NaN", ".NAN"].contains (String.ofList cs) then some (0.0 / 0.0)
  else (Decimal.readFinite? unsigned).bind fun x => if x.isFinite then some x else none

def plainValue (s : String) : Datum :=
  let cs := s.toList
  if s.isEmpty || isNull s then .unit
  else
    match flag? s, whole? cs with
    | some b, _ => .flag b
    | none, some d => d
    | none, none =>
      match if isPadded (Decimal.splitSign cs).2 then none else float? cs with
      | some x => .float x
      | none => .text s

/-- What a scalar stands for. A tag of its document alone asks for no type. -/
def scalarValue? (tag : Option Tag) (plain : Bool) (s : String) : Option Datum :=
  let untyped := if plain then plainValue s else .text s
  match tag with
  | none => some untyped
  | some t =>
    if t = Tag.core "bool" then (flag? s).map .flag
    else if t = Tag.core "int" then whole? s.toList
    else if t = Tag.core "float" then (float? s.toList).map .float
    else if t = Tag.core "null" then (if isNull s then some .unit else none)
    else if t.isLocal then some untyped
    else some (.text s)

end IndexFeed.Yaml
