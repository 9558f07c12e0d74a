import Discovery.Table
import Discovery.Decimal.Layout
import Discovery.Text.Blank

/-!
# Counting

A meter counts the failed operations of each registry type and operation, and the deliveries of
each registry type.  Counters have 64 bits and begin at zero when they are first looked at.  The
text form lists the counters that have been looked at.

Failures are counted under the registry type and the operation written one after the other with
nothing between.  Two pairs that come to the same text share one counter, which is listed with the
pair that made it.

* `failureCount_addFailures`: what adding to a counter does to all of them.
-/

namespace Discovery

/-- A counter of failures, with the registry type and the operation that made it. -/
structure FailureCounter where
  kind : String
  operation : String
  count : UInt64
deriving DecidableEq, Repr, Inhabited

namespace FailureCounter

/-- The name that a counter has for a registry type and an operation. -/
def key (kind operation : String) : String :=
  kind ++ operation

/-- The operations of one registry type have counters of their own. -/
theorem key_inj {kind a b : String} : key kind a = key kind b ↔ a = b :=
  String.append_right_inj kind

/-- Whether a counter is listed before another or is it: the operation counts first. -/
def le (a b : FailureCounter) : Bool :=
  a.operation < b.operation || (a.operation == b.operation && !decide (b.kind < a.kind))

end FailureCounter

/-- The counters of one registry. -/
structure Meter where
  /-- Failures by registry type and operation. -/
  failures : Table FailureCounter
  /-- Deliveries by registry type. -/
  deliveries : Table UInt64
deriving DecidableEq, Repr, Inhabited

namespace Meter

def empty : Meter := ⟨∅, ∅⟩

instance : EmptyCollection Meter := ⟨empty⟩

/-- The counter of an operation, at zero when there is none yet. -/
def failureCounter (m : Meter) (kind operation : String) : FailureCounter :=
  m.failures.getD (FailureCounter.key kind operation) ⟨kind, operation, 0⟩

def addFailures (m : Meter) (kind operation : String) (n : UInt64) : Meter :=
  let c := m.failureCounter kind operation
  { m with
    failures := m.failures.insert (FailureCounter.key kind operation)
      { c with count := c.count + n } }

def fail (m : Meter) (kind operation : String) : Meter :=
  m.addFailures kind operation 1

def addDeliveries (m : Meter) (kind : String) (n : UInt64) : Meter :=
  { m with deliveries := m.deliveries.insert kind (m.deliveries.getD kind 0 + n) }

def failureCount (m : Meter) (kind operation : String) : UInt64 :=
  (m.failureCounter kind operation).count

/-- Looks at the failures of an operation, which makes its counter. -/
def readFailures (m : Meter) (kind operation : String) : Meter × UInt64 :=
  (m.addFailures kind operation 0, m.failureCount kind operation)

theorem failureCount_addFailures (m : Meter) (kind operation kind' operation' : String)
    (n : UInt64) :
    (m.addFailures kind operation n).failureCount kind' operation' =
      m.failureCount kind' operation' +
        if FailureCounter.key kind' operation' = FailureCounter.key kind operation then n
        else 0 := by
  by_cases h : FailureCounter.key kind' operation' = FailureCounter.key kind operation
  · simp only [failureCount, failureCounter, addFailures, Table.getD, Table.get?_insert, h, if_true]
    cases m.failures.get? (FailureCounter.key kind operation) <;> rfl
  · simp [failureCount, failureCounter, addFailures, Table.getD, Table.get?_insert, h]

/-! ## Text form -/

/-- The text of a label: backslash, line end and quote stand behind a backslash. -/
def labelText (s : String) : String :=
  String.ofList (s.toList.flatMap fun c =>
    if c = '\\' then ['\\', '\\']
    else if c = '\n' then ['\\', 'n']
    else if c = '"' then ['\\', '"']
    else [c])

/-- A counter passes through a double, so large counts are rounded. -/
def countText (n : UInt64) : String :=
  (Double.ofNat n.toNat).plain

/-- One line: the name, the labels and the count. -/
def sample (name : String) (labels : List (String × String)) (n : UInt64) : String :=
  name ++ "\x7b" ++
    Text.joinWith "," (labels.map fun l => l.1 ++ "=\"" ++ labelText l.2 ++ "\"") ++
    "\x7d " ++ countText n ++ "\n"

/-- A family of counters; one without counters is left out. -/
def family (name help : String) (samples : List String) : String :=
  if samples.isEmpty then ""
  else "# HELP " ++ name ++ " " ++ help ++ "\n# TYPE " ++ name ++ " counter\n" ++
    Text.joinWith "" samples

def deliveriesName : String := "registry_notifications_total"

def failuresName : String := "registry_operation_failures_total"

/-- All counters as text, in ascending order of their names and labels. -/
def text (m : Meter) : String :=
  family deliveriesName "Total number of data notifications delivered to consumers"
      (m.deliveries.entries.map fun d => sample deliveriesName [("registry", d.1)] d.2) ++
    family failuresName "Total number of failed registry operations"
      ((m.failures.values.mergeSort FailureCounter.le).map fun c =>
        sample failuresName [("operation", c.operation), ("registry", c.kind)] c.count)

end Meter

end Discovery
