import Discovery.Settings.Value
import Discovery.Settings.Yaml.Tag
import Discovery.Json.Basic
import Discovery.Text.Digits

/-!
# Nodes of YAML

A node is a scalar, a list or a table.  A plain scalar without a tag is an integer, a decimal, a
truth value, nothing, or a text; one in quotes is a text.  A scalar that does not fit its tag is no
value, and neither is an alias inside the node that it stands for.

* `Node.value?`: the setting that a node is.
-/

namespace Discovery.Settings.Yaml

open Text (readInteger?)

inductive Node where
  | invalid
  | nothing
  | flag (b : Bool)
  | integer (n : Int)
  /-- A decimal as it is written. -/
  | decimal (text : String)
  | text (s : String)
  | list (items : List Node)
  | table (entries : List (Node × Node))
deriving Repr, Inhabited

/-! ## Scalars -/

/-- The integer that a plain scalar is. -/
def integer? : List Char → Option Int
  | '0' :: 'x' :: cs => readInteger? 16 cs
  | '0' :: 'o' :: cs => readInteger? 8 cs
  | '+' :: cs => readInteger? 10 cs
  | cs => readInteger? 10 cs

/-- The truth value that a plain scalar is. -/
def flag? (s : String) : Option Bool :=
  if s ∈ ["true", "True", "TRUE"] then some true
  else if s ∈ ["false", "False", "FALSE"] then some false
  else none

/-- The names of the doubles that are no finite number. -/
def unboundedNames : List String :=
  [".inf", ".Inf", ".INF", "+.inf", "+.Inf", "+.INF", "-.inf", "-.Inf", "-.INF",
   ".nan", ".NaN", ".NAN"]

def isDecimal (s : String) : Bool :=
  s ∈ unboundedNames || s.toList.any Char.isDigit && (Double.ofText? s).isSome

/-- The node that a plain scalar without a tag is. -/
def Node.ofPlain (s : String) : Node :=
  match integer? s.toList with
  | some n => .integer n
  | none =>
    match flag? s with
    | some b => .flag b
    | none =>
      if s = "" ∨ s = "~" ∨ s = "null" then .nothing
      else if isDecimal s then .decimal s
      else .text s

/-- What the names of all types of the standard begin with. -/
def standardTypes : String := "tag:yaml.org,2002:"

def Node.ofTagged (t : Tag) (s : String) : Node :=
  if t.handle ≠ standardTypes then .text s
  else if t.suffix = "bool" then ((flag? s).map Node.flag).getD .invalid
  else if t.suffix = "int" then ((readInteger? 10 s.toList).map Node.integer).getD .invalid
  else if t.suffix = "float" then if isDecimal s then .decimal s else .invalid
  else if t.suffix = "null" then if s = "~" ∨ s = "null" then .nothing else .invalid
  else .text s

/-! ## Tables -/

/-- Whether two keys are the same.  Only scalars can be keys of settings, so others need not be
compared. -/
def Node.sameKey : Node → Node → Bool
  | .flag a, .flag b => a == b
  | .integer a, .integer b => a == b
  | .decimal a, .decimal b | .text a, .text b => a == b
  | _, _ => false

def Node.isInvalid : Node → Bool
  | .invalid => true
  | _ => false

/-- The entries whose keys and values a list of nodes has in turn, behind those that were read.  A
key that is no value is left out, and the next node is the key.  No key comes twice. -/
def entriesOf? (es : List (Node × Node)) : List Node → Option (List (Node × Node))
  | [] | [_] => some es
  | k :: v :: ns =>
    if k.isInvalid then entriesOf? es (v :: ns)
    else if es.any fun e => e.1.sameKey k then none
    else entriesOf? (es ++ [(k, v)]) ns

/-! ## Settings -/

def Node.name? : Node → Option String
  | .flag b => some (if b then "true" else "false")
  | .integer n => some (Json.intText n)
  | .decimal s | .text s => some s
  | _ => none

mutual

/-- The setting that a node is.  A decimal has to be a finite number. -/
def Node.value? : Node → Option Value
  | .invalid | .nothing => some .nil
  | .flag b => some (.text (if b then "true" else "false"))
  | .integer n => some (.text (Json.intText n))
  | .decimal s => (Double.ofText? s).map fun x => .text x.plain
  | .text s => some (.text s)
  | .list items => if areValues items then some .list else none
  | .table es => (namedValues? [] es).map .table

def areValues : List Node → Bool
  | [] => true
  | n :: ns => n.value?.isSome && areValues ns

/-- The settings that entries are, behind those that were found.  Of keys with one name the last
one counts. -/
def namedValues? (found : List (String × Value)) :
    List (Node × Node) → Option (List (String × Value))
  | [] => some found
  | (k, v) :: es => do
    let name ← k.name?
    namedValues? (Value.setEntry name (← v.value?) found) es

end

end Discovery.Settings.Yaml
