import IndexFeed.Config.Path
import IndexFeed.Config.Source
import IndexFeed.Schema.FromDatum

/-!
# Layers

A configuration is put together from layers: each source adds one, and each layer goes over those
before it. What is wanted of it is read from the layers merged into one.
-/

namespace IndexFeed.Config

open Schema (Form Misfit)

/-- Why a configuration is of no use. -/
inductive ConfigError where
  /-- The prefix of variables is empty. -/
  | emptyPrefix
  /-- A file is missing, or its content is malformed. -/
  | unreadable
  /-- A field has no value. `choices` are the names under which it may be set. -/
  | missingField (name : String) (choices : List String)
  /-- A field has a value of another kind. -/
  | wrongType (path : Path) (expected found : String)
  /-- Anything else that is wrong with a value. -/
  | misfit (m : Misfit)
  deriving Repr

namespace ConfigError

def message : ConfigError → String
  | emptyPrefix => "Environment variable prefix must not be empty."
  | missingField name choices =>
    "Missing field '" ++ name ++ "' in configuration. Try setting " ++
      " or ".intercalate (choices.map Schema.backquoted) ++ "."
  | wrongType path expected found =>
    "Expected value for field '" ++ path.pointed ++ "' to be '" ++ expected ++ "', got '" ++
      found ++ "' instead."
  | unreadable | misfit _ => "Failed to load configuration."

end ConfigError

structure Layers where
  /-- The entries of each layer, the first one first. -/
  entries : List Entries := []
  /-- The prefixes of the variables that have been looked up, each of them once. -/
  prefixes : List String := []
  deriving Repr

namespace Layers

def push (l : Layers) (es : Entries) : Layers := { l with entries := l.entries ++ [es] }

def add (env : Environment) (l : Layers) : Source → Except ConfigError Layers
  | .file format required content =>
    match content.bind format.read? with
    | some es => .ok (l.push es)
    | none => if required then .error .unreadable else .ok l
  | .environment p =>
    if p.isEmpty then .error .emptyPrefix
    else
      let p := Environment.normalPrefix p
      .ok { l.push (Environment.entries p env) with
        prefixes := if p ∈ l.prefixes then l.prefixes else l.prefixes ++ [p] }

/-- Adds the layers of sources, one after another. An error tells which source it is of; the first
of them is at `index`. -/
def addAll (env : Environment) (l : Layers) (index : Nat) :
    List Source → Except (Nat × ConfigError) Layers
  | [] => .ok l
  | s :: rest =>
    match l.add env s with
    | .ok l => addAll env l (index + 1) rest
    | .error e => .error (index, e)

def load (env : Environment) (sources : List Source) : Except (Nat × ConfigError) Layers :=
  addAll env {} 0 sources

/-- All layers in one: the later ones over the earlier ones, sequences joined. -/
def merged (l : Layers) : Entries := l.entries.foldl (mergeEntries .join) []

/-- The names under which a field may be set: its own, and the variable of each prefix. The prefixes
are a set, in which no order is meant; the names stand here in the order in which the prefixes were
added. -/
def choices (l : Layers) (name : String) : List String :=
  name :: l.prefixes.map fun p => Environment.variableOf p name

def errorOf (l : Layers) (m : Misfit) : ConfigError :=
  match m.fault with
  | .missingField name => .missingField name (l.choices name)
  | .wrongType found expected => .wrongType m.path expected found.configurationText
  | _ => .misfit m

def extract {α : Type} (l : Layers) (form : Form α) : Except ConfigError α :=
  match form.ofDatum .configuration (.mapping l.merged) with
  | .ok a => .ok a
  | .error m => .error (l.errorOf m)

end Layers

end IndexFeed.Config
