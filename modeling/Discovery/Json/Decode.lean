import Discovery.Json.Draft

/-!
# Reading what is wanted

A reader asks a draft for a value of one kind.  It walks through the draft from left to right, and
the first thing that is wrong decides.  Arrays and objects may be nested 127 deep in what is
wanted; what is skipped may be nested as it likes.
-/

namespace Discovery.Json

/-- Asks a draft for a value, with so many levels of nesting left. -/
abbrev Reader (α : Type) := Nat → Draft → Except Category α

/-- How deep arrays and objects may be nested. -/
def maxDepth : Nat := 127

/-! ## Simple values -/

/-- The answer to a draft that has not the wanted kind.  A number and a text are read before their
kind is looked at. -/
def mismatch (d : Draft) : Category :=
  match d with
  | .number none => .malformed
  | .text none => .malformed
  | .broken b => b.wanted
  | _ => .data

def readString : Reader String
  | _, .text (some s) => .ok s
  | _, d => .error (mismatch d)

def readBool : Reader Bool
  | _, .bool b => .ok b
  | _, d => .error (mismatch d)

/-- A double, for which an integer will do. -/
def readDouble : Reader Double
  | _, .number (some (.double x)) => .ok x
  | _, .number (some (.int n)) =>
    .ok (signed (n < 0) (Double.ofNat n.natAbs))
  | _, d => .error (mismatch d)

def readInt (low high : Int) : Reader Int
  | _, .number (some (.int n)) => if low ≤ n ∧ n ≤ high then .ok n else .error .data
  | _, d => .error (mismatch d)

def readPort : Reader UInt16 := fun depth d =>
  (readInt 0 65535 depth d).map fun n => UInt16.ofNat n.toNat

/-! ## Skipping -/

/-- What is wrong at the end of a list, for who skips it. -/
def Tail.skip : Tail → Except Category Unit
  | .closed => .ok ()
  | .cut _ b => .error b.skipped

/-- What is wrong at the end of a list, for who wants it. -/
def Tail.finish : Tail → Except Category Unit
  | .closed => .ok ()
  | .cut _ b => .error b.wanted

mutual

def skip : Draft → Except Category Unit
  | .broken b => .error b.skipped
  | .array items tail => do skipItems items; tail.skip
  | .object members tail => do skipMembers members; tail.skip
  | _ => .ok ()

def skipItems : List Draft → Except Category Unit
  | [] => .ok ()
  | d :: ds => do skip d; skipItems ds

def skipMembers : List (Option String × Draft) → Except Category Unit
  | [] => .ok ()
  | (_, d) :: ms => do skip d; skipMembers ms

end

/-! ## Any value -/

mutual

/-- Any value.  The members of an object are put in ascending order of their names, and of two
members with one name the later one counts. -/
def readAny : Nat → Draft → Except Category Json
  | _, .null => .ok .null
  | _, .bool b => .ok (.bool b)
  | _, .number (some n) => .ok (.number n)
  | _, .text (some s) => .ok (.text s)
  | 0, .array _ _ => .error .malformed
  | 0, .object _ _ => .error .malformed
  | depth + 1, .array items tail => do
    let js ← readAnyItems depth items
    tail.finish
    return .array js
  | depth + 1, .object members tail => do
    let ms ← readAnyMembers depth members []
    tail.finish
    return .object ms
  | _, d => .error (mismatch d)

def readAnyItems (depth : Nat) : List Draft → Except Category (List Json)
  | [] => .ok []
  | d :: ds => do
    let j ← readAny depth d
    let js ← readAnyItems depth ds
    return j :: js

/-- Any members, added to those in front of them. -/
def readAnyMembers (depth : Nat) : List (Option String × Draft) → List (String × Json) →
    Except Category (List (String × Json))
  | [], acc => .ok acc
  | (none, _) :: _, _ => .error .malformed
  | (some k, d) :: ms, acc => do
    let j ← readAny depth d
    readAnyMembers depth ms (Table.insertEntry k j acc)

end

/-! ## Lists and records -/

def readList {α : Type} (item : Reader α) : Reader (List α)
  | 0, .array _ _ => .error .malformed
  | depth + 1, .array items tail => do
    let xs ← items.mapM (item depth)
    tail.finish
    return xs
  | _, d => .error (mismatch d)

def foldMembers {σ : Type} (step : σ → String → Draft → Except Category σ) :
    List (Option String × Draft) → σ → Except Category σ
  | [], s => .ok s
  | (none, _) :: _, _ => .error .malformed
  | (some k, d) :: ms, s => do
    let s ← step s k d
    foldMembers step ms s

/-- A table of values of one kind, where a later member replaces an earlier one of its name. -/
def readTable {α : Type} (value : Reader α) : Reader (Table α)
  | 0, .object _ _ => .error .malformed
  | depth + 1, .object members tail => do
    let t ← foldMembers (fun t k d => do return t.insert k (← value depth d)) members ∅
    tail.finish
    return t
  | _, d => .error (mismatch d)

/-- One field of a record: its name, and how its value is read into the record. -/
structure FieldReader (σ : Type) where
  name : String
  read : Nat → Draft → σ → Except Category σ

/-- A field that is read and then set. -/
def FieldReader.of {σ α : Type} (name : String) (reader : Reader α) (set : α → σ → σ) :
    FieldReader σ where
  name
  read depth d s := (reader depth d).map (set · s)

def readFields {σ : Type} (depth : Nat) : List (FieldReader σ) → List Draft → σ →
    Except Category (σ × List Draft)
  | [], ds, s => .ok (s, ds)
  | _, [], s => .ok (s, [])
  | f :: fs, d :: ds, s => do
    let s ← f.read depth d s
    readFields depth fs ds s

/-- A record whose fields have default values.  It is an object, in which no field stands twice
and unknown members are skipped, or an array of the fields in their order, which may be short. -/
def readRecord {σ : Type} (fields : List (FieldReader σ)) (default : σ) : Reader σ
  | 0, .object _ _ => .error .malformed
  | 0, .array _ _ => .error .malformed
  | depth + 1, .object members tail => do
    let step := fun (seen : List String × σ) k d => do
      match fields.find? (·.name == k) with
      | none => skip d; return seen
      | some f =>
        if seen.1.contains k then throw .data
        return (k :: seen.1, ← f.read depth d seen.2)
    let (_, s) ← foldMembers step members ([], default)
    tail.finish
    return s
  | depth + 1, .array items tail => do
    let (s, rest) ← readFields depth fields items default
    if !rest.isEmpty then throw .malformed
    match tail with
    | .cut true _ => if fields.length ≤ items.length then throw .malformed
    | _ => pure ()
    tail.finish
    return s
  | _, d => .error (mismatch d)

/-! ## Whole texts -/

/-- Reads a text that holds one value and nothing else. -/
def decode {α : Type} (reader : Reader α) (bs : Bytes) : Except Category α := do
  let (d, rest) := Draft.ofBytes bs
  let x ← reader maxDepth d
  match rest with
  | none => throw .eof
  | some r => if (skipBlanks r).isEmpty then return x else throw .malformed

end Discovery.Json
