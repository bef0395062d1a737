import IndexFeed.Config.Inline
import IndexFeed.Config.Path
import IndexFeed.Text.Uppercase

/-!
# Environment

Variables whose names begin with a prefix set entries of the configuration. The rest of such a
name, in lowercase, is a path: a double underscore or a point separates its parts.
-/

namespace IndexFeed.Config

open Schema (Datum)

/-- Names of variables and their values, in the order in which the process is given them. -/
abbrev Environment := List (String × String)

namespace Environment

/-- A name with its ASCII letters in lowercase. -/
def lower (cs : List Char) : List Char := cs.map Char.toLower

/-- A prefix as names have it: in uppercase, with an underscore at its end. -/
def normalPrefix (p : String) : String :=
  let cs := Text.upper p.toList
  String.ofList (if cs.getLast? = some '_' then cs else cs ++ ['_'])

/-- The rest of a name behind a prefix, the case of ASCII letters aside. -/
def afterPrefix? (p name : List Char) : Option (List Char) :=
  if (lower p).isPrefixOf (lower name) then some (name.drop p.length) else none

/-- A name with a point for every double underscore. -/
def pointed : List Char → List Char
  | '_' :: '_' :: rest => '.' :: pointed rest
  | c :: rest => c :: pointed rest
  | [] => []

/-- The path that a variable sets, if its name begins with the prefix `p` and no part of the path is
empty. White space around the name and around the path counts for nothing. -/
def path? (p name : String) : Option Path :=
  match afterPrefix? p.toList (Text.trimBy Text.isBlank name.toList) with
  | some rest =>
    let path := Path.ofPointed (Text.trimBy Text.isBlank (pointed (lower rest)))
    if path.any String.isEmpty then none else some path
  | none => none

/-- A key with a double underscore for every point. -/
def underscored (cs : List Char) : List Char :=
  cs.flatMap fun c => if c = '.' then ['_', '_'] else [c]

/-- The variable that sets a key, a name or a path with points, under the prefix `p`. -/
def variableOf (p key : String) : String :=
  p ++ String.ofList (Text.upper (underscored key.toList))

def entriesOf (p name value : String) : Entries :=
  match path? p name with
  | some (first :: path) => [(first, Path.nest path (Inline.read value))]
  | _ => []

/-- The configuration that all variables set, the later ones over the earlier ones. -/
def entries (p : String) (env : Environment) : Entries :=
  env.foldl (fun es (name, value) => mergeEntries .replace es (entriesOf p name value)) []

end Environment

end IndexFeed.Config
