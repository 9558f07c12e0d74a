import Discovery.Settings
import Discovery.Text.Blank
import Discovery.Text.Digits

/-!
# Setting values

What a settings file or the environment says is a tree of tables with texts at its leaves.  Sources
are laid over one another: a later one adds to the tables of an earlier one and replaces what is
not a table in both.

A name at the top may be a path, such as `props.namespace`, which leads into tables.
-/

namespace Discovery.Settings

/-- A value of a settings source.  Of a list nothing is used but that it is one. -/
inductive Value where
  | nil
  | text (s : String)
  | list
  | table (entries : List (String × Value))
deriving Repr, Inhabited

namespace Value

def entries : Value → List (String × Value)
  | .table es => es
  | _ => []

def setEntry (k : String) (v : Value) : List (String × Value) → List (String × Value)
  | [] => [(k, v)]
  | e :: es => if e.1 = k then (k, v) :: es else e :: setEntry k v es

def get (es : List (String × Value)) (k : String) : Value :=
  (es.lookup k).getD .nil

mutual

def layOver : Value → Value → Value
  | .table es, target => .table (layAll es target.entries)
  | v, _ => v

def layAll : List (String × Value) → List (String × Value) → List (String × Value)
  | [], acc => acc
  | (k, v) :: es, acc => layAll es (setEntry k (layOver v (get acc k)) acc)

end

/-! ## Paths -/

/-- A step of a path: to an entry of a table, or to an item of a list. -/
inductive Step where
  | entry (name : String)
  | item
deriving DecidableEq, Repr

def isNameChar (c : Char) : Bool :=
  c.isAlphanum || c == '_' || c == '-'

/-- What follows the number of an item, which stands between brackets, perhaps with blanks around
it.  The number may have a minus sign, and it is an integer of 64 bits. -/
def afterItem? (cs : List Char) : Option (List Char) :=
  let cs := cs.dropWhile Text.isSpace
  let (negative, ds) := match cs with
    | '-' :: ds => (true, ds)
    | ds => (false, ds)
  let size := Text.digitsValue 10 (ds.takeWhile Char.isDigit)
  let n : Int := if negative then -size else size
  match (ds.dropWhile Char.isDigit).dropWhile Text.isSpace with
  | ']' :: cs =>
    if (ds.takeWhile Char.isDigit).isEmpty || !Decimal.fitsSigned n then none else some cs
  | _ => none

/-- The steps that a text consists of.  A text that is no path is one name. -/
def stepsFrom? : Nat → List Char → Option (List Step)
  | 0, _ => none
  | _ + 1, [] => some []
  | fuel + 1, '.' :: cs =>
    let name := cs.takeWhile isNameChar
    if name.isEmpty then none
    else (stepsFrom? fuel (cs.dropWhile isNameChar)).map (.entry (String.ofList name) :: ·)
  | fuel + 1, '[' :: cs => (afterItem? cs).bind fun cs => (stepsFrom? fuel cs).map (.item :: ·)
  | _ + 1, _ => none

/-- The path that a name stands for. -/
def path (key : String) : List Step :=
  (stepsFrom? (key.length + 2) ('.' :: key.toList)).getD [.entry key]

/-- Lays a value over what a path leads to. -/
def put (v : Value) : List Step → Value → Value
  | [], target => layOver v target
  | .entry k :: steps, target =>
    .table (setEntry k (put v steps (get target.entries k)) target.entries)
  | .item :: _, _ => .list

/-- Lays the entries of a source over a value, each at the path that its name stands for. -/
def overlay (source : List (String × Value)) (target : Value) : Value :=
  source.foldl (fun t e => put e.2 (path e.1) t) target

/-! ## Reading settings -/

/-- A text, for which every leaf will do. -/
def text? : Value → Option String
  | .text s => some s
  | _ => none

def optional? (es : List (String × Value)) (k : String) : Option String :=
  match es.lookup k with
  | none => some ""
  | some v => v.text?

def texts? (es : List (String × Value)) (k : String) : Option (Table String) :=
  match es.lookup k with
  | none => some ∅
  | some (.table ps) => do
    let texts ← ps.mapM fun (p : String × Value) => p.2.text?.map (p.1, ·)
    return Table.ofList texts
  | some _ => none

/-- The settings that a value stands for.  Entries of other names are passed over. -/
def settings? (v : Value) : Option Settings := do
  let es := v.entries
  let kind ← optional? es "registry_type"
  let servers ← optional? es "server_lists"
  let props ← texts? es "props"
  return { kind, servers, props }

end Value

end Discovery.Settings
