import Discovery.Settings.Environment
import Discovery.Settings.Json
import Discovery.Settings.Toml
import Discovery.Settings.Yaml

/-!
# Loading settings

Settings come from a file, which may be left out, and from the environment, which comes last: what
it sets replaces what the file says.  Settings without a server are refused.
-/

namespace Discovery.Settings

/-- A form in which a settings file is written. -/
inductive Format where
  | yaml
  | toml
  | json
deriving DecidableEq, Repr

/-- The form of the files whose names end like this. -/
def Format.ofExtension? (extension : String) : Option Format :=
  if extension = "yaml" ∨ extension = "yml" then some .yaml
  else if extension = "toml" then some .toml
  else if extension = "json" then some .json
  else none

def Format.read? : Format → String → Option Value
  | .yaml, text => Yaml.read? text
  | .toml, text => Toml.read? text
  | .json, text => readJson text

/-- A settings file: how its name ends, and its text, if there is such a file. -/
structure File where
  extension : String
  text : Option String

def File.entries? (f : File) : Option (List (String × Value)) := do
  let format ← Format.ofExtension? f.extension
  let v ← format.read? (String.ofList (Text.dropOrderMark (← f.text).toList))
  match v with
  | .table es => some es
  | _ => none

/-- Why settings cannot be loaded. -/
inductive Trouble where
  | unreadable
  | noServer
deriving DecidableEq, Repr

/-- What is wrong with settings that cannot be loaded; for a source that cannot be read there is no
wording. -/
def Trouble.failure? : Trouble → Option Failure
  | .unreadable => none
  | .noServer => some (.config "server_lists is empty")

def read? (file : Option File) (environment : Table String) : Option Settings := do
  let fromFile ← match file with
    | some f => f.entries?
    | none => some []
  let v := Value.overlay fromFile (.table [])
  (Value.overlay (Environment.entries environment) v).settings?

/-- Loads settings from a file and from the variables of the environment. -/
def load (file : Option File) (environment : Table String) : Except Trouble Settings :=
  match read? file environment with
  | none => .error .unreadable
  | some s => if Text.trim s.servers = "" then .error .noServer else .ok s

end Discovery.Settings
