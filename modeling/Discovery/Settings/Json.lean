import Discovery.Settings.Value
import Discovery.Json.Decode

/-!
# Settings in JSON

A settings file may hold one JSON object.
-/

namespace Discovery.Settings

/-- The text of a number.  An integer is written as it is, a double without an exponent. -/
def numberText : Discovery.Json.Number → String
  | .int n => Json.intText n
  | .double x => x.plain

mutual

def Value.ofJson : Discovery.Json → Value
  | .null => .nil
  | .bool b => .text (if b then "true" else "false")
  | .number n => .text (numberText n)
  | .text s => .text s
  | .array _ => .list
  | .object ms => .table (Value.ofMembers ms)

def Value.ofMembers : List (String × Discovery.Json) → List (String × Value)
  | [] => []
  | (k, j) :: ms => (k, Value.ofJson j) :: Value.ofMembers ms

end

def readJson (text : String) : Option Value :=
  (Json.decode Json.readAny (Bytes.ofText text)).toOption.map Value.ofJson

end Discovery.Settings
