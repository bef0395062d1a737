import IndexFeed.Decimal.Style
import IndexFeed.Json.Printer
import IndexFeed.Schema.Datum
import IndexFeed.Text.Quoted

/-!
# Faults

What is wrong with data that do not have the form that is wanted, and how documents and
configurations word it.
-/

namespace IndexFeed.Schema

/-- What was found where something else is wanted. -/
inductive Found where
  | unit
  | flag (b : Bool)
  | unsigned (n : Nat)
  | signed (n : Int)
  | float (x : Float)
  | char (c : Char)
  | text (s : String)
  | sequence
  | mapping
  | bareVariant
  deriving Repr

/-- What a datum counts as. -/
def Datum.found : Datum → Found
  | unit => .unit
  | flag b => .flag b
  | unsigned n => .unsigned n
  | signed n => .signed n
  | float x => .float x
  | char c => .char c
  | text s => .text s
  | sequence _ => .sequence
  | mapping _ => .mapping

/-- A mismatch between data and the form that is wanted. -/
inductive Fault where
  /-- A datum of another kind. -/
  | wrongType (found : Found) (expected : String)
  /-- A datum of the right kind that is out of range. -/
  | wrongValue (found : Found) (expected : String)
  /-- A sequence of the wrong length. -/
  | wrongLength (length : Nat) (expected : String)
  /-- A name that is none of the choices. -/
  | unknownVariant (name : String) (names : List String)
  /-- A field that has no value. -/
  | missingField (name : String)
  /-- A field with two values. -/
  | duplicateField (name : String)
  /-- A number that no JSON value can hold. -/
  | numberOutOfRange
  deriving Repr

/-! ### Wording -/

def flagText (b : Bool) : String := if b then "true" else "false"

def backquoted (s : String) : String := "`" ++ s ++ "`"

/-- The choices, as messages list them. -/
def choicesText : List String → String
  | [] => "there are no variants"
  | [a] => backquoted a
  | [a, b] => backquoted a ++ " or " ++ backquoted b
  | names => "one of " ++ ", ".intercalate (names.map backquoted)

/-- What was found, in the words of a document. -/
def Found.documentText : Found → String
  | unit => "null"
  | flag b => "boolean " ++ backquoted (flagText b)
  | unsigned n => "integer " ++ backquoted (toString n)
  | signed n => "integer " ++ backquoted (toString n)
  | float x => "floating point " ++ backquoted (String.ofList (Json.finiteText x))
  | char c => "character " ++ backquoted (String.singleton c)
  | text s => "string " ++ Text.quoted s
  | sequence => "sequence"
  | mapping => "map"
  | bareVariant => "unit variant"

def Fault.documentText : Fault → String
  | wrongType found expected => "invalid type: " ++ found.documentText ++ ", expected " ++ expected
  | wrongValue found expected =>
    "invalid value: " ++ found.documentText ++ ", expected " ++ expected
  | wrongLength n expected => "invalid length " ++ toString n ++ ", expected " ++ expected
  | unknownVariant name names =>
    "unknown variant " ++ backquoted name ++ ", expected " ++ choicesText names
  | missingField name => "missing field " ++ backquoted name
  | duplicateField name => "duplicate field " ++ backquoted name
  | numberOutOfRange => "JSON number out of range"

/-- Whole numbers beyond 64 bits have no kind of their own in a configuration. -/
def Found.isWide : Found → Bool
  | unsigned n => 0x10000000000000000 ≤ n
  | signed n => n < -0x8000000000000000
  | _ => false

/-- What was found, in the words of a configuration. -/
def Found.configurationText : Found → String
  | unit => "unit"
  | flag b => "bool " ++ flagText b
  | unsigned n =>
    if 0x10000000000000000 ≤ n then "integer " ++ backquoted (toString n) ++ " as u128"
    else "unsigned int " ++ backquoted (toString n)
  | signed n =>
    if n < -0x8000000000000000 then "integer " ++ backquoted (toString n) ++ " as i128"
    else "signed int " ++ backquoted (toString n)
  | float x => "float " ++ backquoted (Decimal.longhand x)
  | char c => "char " ++ Text.quotedSingle c
  | text s => "string " ++ Text.quoted s
  | sequence => "sequence"
  | mapping => "map"
  | bareVariant => "unit variant"

def Fault.configurationText : Fault → String
  | wrongType found expected =>
    "invalid type: found " ++ found.configurationText ++ ", expected " ++ expected
  | wrongValue found expected =>
    "invalid value " ++ found.configurationText ++ ", expected " ++ expected
  | wrongLength n expected => "invalid length " ++ toString n ++ ", expected " ++ expected
  | unknownVariant name names =>
    "unknown variant: found " ++ backquoted name ++ ", expected " ++ backquoted (choicesText names)
  | missingField name => "missing field " ++ backquoted name
  | duplicateField name => "duplicate field " ++ backquoted name
  | numberOutOfRange => "JSON number out of range"

end IndexFeed.Schema
