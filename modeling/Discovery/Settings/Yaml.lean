import Discovery.Settings.Yaml.Document
import Discovery.Settings.Yaml.Lexer

/-!
# Settings in YAML

A settings file may hold one YAML document.
-/

namespace Discovery.Settings.Yaml

/-- Reads the settings of a YAML file.  A file without a document is an empty table. -/
def read? (text : String) : Option Value := do
  match ← documents? (← tokens? text) with
  | [] => return .table []
  | [n] => n.value?
  | _ => none

end Discovery.Settings.Yaml
