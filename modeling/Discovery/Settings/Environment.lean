import Discovery.Settings.Value

/-!
# Settings in the environment

A variable whose name begins with `BATATA_REGISTRY__`, in any case, is a setting.  Two underscores
in the rest of its name lead into a table, and its letters are made small.
-/

namespace Discovery.Settings.Environment

/-- How the names of variables begin that are settings. -/
def start : List Char := "batata_registry__".toList

/-- The small letter of a character.  Beside the ASCII letters only the Kelvin sign has one that
may stand in a name. -/
def small (c : Char) : Char :=
  if c = Char.ofNat 0x212a then 'k' else c.toLower

/-- A text with a point in the stead of two underscores. -/
def pointed : List Char → List Char
  | [] => []
  | [c] => [c]
  | a :: b :: r => if a = '_' ∧ b = '_' then '.' :: pointed r else a :: pointed (b :: r)

/-- The setting that a variable is. -/
def entry? (name value : String) : Option (String × Value) :=
  let cs := name.toList.map small
  if start.isPrefixOf cs then
    some (String.ofList (pointed (cs.drop start.length)), .text value)
  else none

def entries (environment : Table String) : List (String × Value) :=
  environment.entries.filterMap fun v => entry? v.1 v.2

end Discovery.Settings.Environment
