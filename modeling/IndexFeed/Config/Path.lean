import IndexFeed.Config.Merge

/-!
# Paths

Names that lead from a mapping to a datum within it. A name with points in it is a path of its own.
Main statement: a path leads to what has been nested under it.
-/

namespace IndexFeed.Config

open Schema (Datum)

/-- Names, each of them an entry of what the name before it leads to. -/
abbrev Path := List String

namespace Path

/-- What stands between the points. -/
def split : List Char → List (List Char)
  | [] => [[]]
  | c :: rest =>
    if c = '.' then [] :: split rest
    else
      match split rest with
      | part :: more => (c :: part) :: more
      | [] => [[c]]

def ofPointed (cs : List Char) : Path := (split cs).map String.ofList

def pointed (path : Path) : String := ".".intercalate path

/-- The datum in which a path leads to `d` and to nothing else. -/
def nest : Path → Datum → Datum
  | [], d => d
  | name :: path, d => .mapping [(name, nest path d)]

def find? : Path → Datum → Option Datum
  | [], d => some d
  | name :: path, .mapping entries => (Entries.get? entries name).bind (find? path)
  | _ :: _, _ => none

theorem find?_nest (path : Path) (d : Datum) : path.find? (path.nest d) = some d := by
  induction path with
  | nil => rfl
  | cons name path ih => simp [nest, find?, Entries.get?, ih]

end Path

end IndexFeed.Config
