import Discovery.Decimal.Power
import Discovery.Failure
import Discovery.Text.Blank

/-!
# Settings

The settings of a registry: its type, a list of servers with commas between them, and properties.
The name of a property is looked up as it is written first, and then without regard to the case of
ASCII letters.

* `readUnsigned?`: a number of 64 bits as text.
-/

namespace Discovery

/-- The settings of a registry. -/
structure Settings where
  kind : String
  servers : String
  props : Table String
deriving DecidableEq, Repr, Inhabited

/-- The number that decimal digits stand for, if there is nothing else and at least one. -/
def readDigits? (cs : List Char) : Option Nat :=
  if cs.isEmpty || !cs.all Char.isDigit then none
  else some (cs.foldl (fun n c => n * 10 + (c.toNat - 48)) 0)

/-- A number of 64 bits: digits, perhaps behind a plus sign. -/
def readUnsigned? (s : String) : Option Nat :=
  let digits := match s.toList with
    | '+' :: cs => cs
    | cs => cs
  (readDigits? digits).filter (· < Decimal.unsignedLimit)

def sameIgnoringCase (a b : String) : Bool :=
  a.toList.map Char.toLower == b.toList.map Char.toLower

namespace Settings

def ofServers (kind servers : String) : Settings :=
  ⟨kind, servers, ∅⟩

def setProp (s : Settings) (name value : String) : Settings :=
  { s with props := s.props.insert name value }

/-- The addresses of the servers, without blanks around them and without empty ones. -/
def addresses (s : Settings) : List String :=
  ((Text.splitOn s.servers ',').map Text.trim).filter (· != "")

def prop? (s : Settings) (name : String) : Option String :=
  match s.props.get? name with
  | some v => some v
  | none => (s.props.entries.find? fun e => sameIgnoringCase e.1 name).map (·.2)

def propD (s : Settings) (name default : String) : String :=
  (s.prop? name).getD default

/-- What is wrong with a property that should be a number. -/
def notANumber (name value : String) : Failure :=
  .config ("property '" ++ name ++ "' is not a number: " ++ value)

/-- A property that is a number of 64 bits, or a given one if it is not set. -/
def number (s : Settings) (name : String) (default : Nat) : Except Failure Nat :=
  match s.prop? name with
  | none => .ok default
  | some v =>
    match readUnsigned? (Text.trim v) with
    | some n => .ok n
    | none => .error (notANumber name v)

end Settings

end Discovery
