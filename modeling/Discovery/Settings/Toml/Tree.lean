import Discovery.Settings.Value

/-!
# Tables of TOML

What a TOML document has said so far.  A table comes into being by a heading, by a longer heading,
or by a name with points; which of them decides what may be added to it later.

* `Entries.set?`: a name with points and its value.
* `Entries.open?`: a heading.
-/

namespace Discovery.Settings.Toml

/-- How a table came into being. -/
inductive Source where
  | heading
  | longerHeading
  | pointedName
deriving DecidableEq, Repr

/-- What a name stands for: a value that is complete, a table, or the last one of a list of tables
with a heading each. -/
inductive Node where
  | value (v : Value)
  | table (source : Source) (entries : List (String × Node))
  | series (entries : List (String × Node))

abbrev Entries := List (String × Node)

mutual

def Node.toValue : Node → Value
  | .value v => v
  | .table _ es => .table (entriesValue es)
  | .series _ => .list

def entriesValue : List (String × Node) → List (String × Value)
  | [] => []
  | (k, n) :: es => (k, n.toValue) :: entriesValue es

end

namespace Entries

/-- Puts a node into the place of the one with its name. -/
def put (k : String) (n : Node) : Entries → Entries
  | [] => [(k, n)]
  | e :: es => if e.1 = k then (k, n) :: es else e :: put k n es

/-- Sets a name with points, from its first part on, that has no value yet. -/
def set? (v : Value) : List String → Entries → Option Entries
  | [], _ => none
  | [k], es => if (es.lookup k).isSome then none else some (es ++ [(k, .value v)])
  | k :: ks, es =>
    match es.lookup k with
    | none => (set? v ks []).map fun inner => es ++ [(k, .table .pointedName inner)]
    | some (.table source inner) =>
      if source = .heading then none
      else (set? v ks inner).map fun inner => put k (.table source inner) es
    | some _ => none

/-- Changes the entries to which the path of a heading leads. -/
def within? (change : Entries → Option Entries) : List String → Entries → Option Entries
  | [], es => change es
  | k :: ks, es =>
    match es.lookup k with
    | none => (within? change ks []).map fun inner => es ++ [(k, .table .longerHeading inner)]
    | some (.table source inner) =>
      (within? change ks inner).map fun inner => put k (.table source inner) es
    | some (.series inner) => (within? change ks inner).map fun inner => put k (.series inner) es
    | some (.value _) => none

/-- Begins a table with a heading; only one that a longer heading made may be there already. -/
def openTable? (k : String) (es : Entries) : Option Entries :=
  match es.lookup k with
  | none => some (es ++ [(k, .table .heading [])])
  | some (.table .longerHeading inner) => some (put k (.table .heading inner) es)
  | some _ => none

def openNext? (k : String) (es : Entries) : Option Entries :=
  match es.lookup k with
  | none => some (es ++ [(k, .series [])])
  | some (.series _) => some (put k (.series []) es)
  | some _ => none

def open? (next : Bool) (path : List String) (es : Entries) : Option Entries := do
  let k ← path.getLast?
  within? (if next then openNext? k else openTable? k) path.dropLast es

end Entries

end Discovery.Settings.Toml
