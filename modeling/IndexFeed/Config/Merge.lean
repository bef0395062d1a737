import IndexFeed.Schema.Datum

/-!
# Merging

Configurations are mappings, entries sorted by name, each name once. A later configuration goes
over an earlier one: mappings are merged entry by entry, and of anything else the later one stays.
Two sequences are either joined or treated like the rest.
-/

namespace IndexFeed.Config

open Schema (Datum)

abbrev Entries := List (String × Datum)

inductive SequenceRule where
  /-- The items of the earlier one come before those of the later one. -/
  | join
  /-- The later one stays. -/
  | replace
  deriving DecidableEq, Repr

namespace Entries

/-- Sorted entries with `name` set to `d`. -/
def put (name : String) (d : Datum) : Entries → Entries
  | [] => [(name, d)]
  | (n, old) :: rest =>
    if name < n then (name, d) :: (n, old) :: rest
    else if name = n then (name, d) :: rest
    else (n, old) :: put name d rest

/-- Entries in the order they are written, sorted, the last of each name kept. -/
def ofWritten (written : List (String × Datum)) : Entries :=
  written.foldl (fun es (name, d) => put name d es) []

def get? (es : Entries) (name : String) : Option Datum := es.lookup name

end Entries

mutual

/-- The datum `later` over `earlier`. -/
def merge (rule : SequenceRule) (earlier : Datum) : Datum → Datum
  | .mapping later =>
    match earlier with
    | .mapping entries => .mapping (mergeEntries rule entries later)
    | _ => .mapping later
  | .sequence later =>
    match rule, earlier with
    | .join, .sequence items => .sequence (items ++ later)
    | _, _ => .sequence later
  | later => later

/-- The entries `later`, one after another, over `earlier`. -/
def mergeEntries (rule : SequenceRule) (earlier : Entries) : Entries → Entries
  | [] => earlier
  | (name, d) :: later =>
    let merged := match Entries.get? earlier name with
      | some old => merge rule old d
      | none => d
    mergeEntries rule (Entries.put name merged earlier) later

end

end IndexFeed.Config
