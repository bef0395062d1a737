import IndexFeed.Config.Layers
import IndexFeed.Replay.Settings

/-!
# Setup of a replay

The settings of a replay come from a YAML file and from the environment, whose variables go over
what the file says.
-/

namespace IndexFeed

open Config (ConfigError Environment Layers Source)
open Text (Bytes)

/-- Why there are no settings. -/
inductive SetupError where
  /-- The file could not be read. -/
  | file (error : ConfigError)
  /-- The environment could not be read. -/
  | environment (error : ConfigError)
  /-- The configuration holds no settings. -/
  | values (error : ConfigError)

/-- The wording of an error about the file at `path`. -/
def SetupError.message (path : String) : SetupError → String
  | file e => "Failed to read configuration file '" ++ path ++ "'.: " ++ e.message
  | environment e => "Failed to read configuration from environment.: " ++ e.message
  | values e => "Failed to parse configuration.: " ++ e.message

namespace ReplaySettings

/-- What the names of variables begin with. -/
def environmentPrefix : String := "DATAPORT"

/-- The layers of a replay's configuration, given the content of the file if there is one. -/
def layers (env : Environment) (content : Option Bytes) : Except SetupError Layers :=
  match Layers.add env {} (.file .yaml true content) with
  | .error e => .error (.file e)
  | .ok l =>
    match l.add env (.environment environmentPrefix) with
    | .error e => .error (.environment e)
    | .ok l => .ok l

def load (env : Environment) (content : Option Bytes) : Except SetupError ReplaySettings :=
  match layers env content with
  | .error e => .error e
  | .ok l =>
    match l.extract form with
    | .ok s => .ok s
    | .error e => .error (.values e)

end ReplaySettings

end IndexFeed
