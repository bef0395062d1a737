import IndexFeed.Config.Environment
import IndexFeed.Config.Reserved
import IndexFeed.Json.Reader
import IndexFeed.Yaml.Document

/-!
# Sources

Where the entries of a configuration come from: files in YAML or in JSON, whose top is a mapping,
and variables of the environment.
-/

namespace IndexFeed.Config

open Schema (Datum)
open Text (Bytes)

inductive FileFormat where
  | yaml
  | json
  deriving DecidableEq, Repr

namespace FileFormat

def readJson? (bytes : Bytes) : Option Entries :=
  match Json.parseRaw bytes with
  | .ok v =>
    match Datum.ofJson v with
    | .mapping written => (Reserved.entries? written).map Entries.ofWritten
    | _ => none
  | .error _ => none

def read? (format : FileFormat) (bytes : Bytes) : Option Entries :=
  (Text.decode? bytes).bind fun s =>
    match format with
    | .yaml => Yaml.read? s
    | .json => readJson? bytes

end FileFormat

inductive Source where
  /-- A file, whose content is absent if there is no such file. What is wrong with it is overlooked
  unless it is required. -/
  | file (format : FileFormat) (required : Bool) (content : Option Bytes)
  /-- The variables whose names begin with a prefix. -/
  | environment (p : String)
  deriving Repr

end IndexFeed.Config
