import Discovery.Failure
import Discovery.Meter

/-!
# Publishing meters

A meter publishes its counters in a collection of its own, or in one that several may share.  A
collection takes each name of a counter once, so only one meter can publish in it.
-/

namespace Discovery

/-- Where the meters of one program publish their counters: whether a meter publishes in the shared
collection, and the meter that was made last. -/
structure Exposition where
  shared : Bool
  meter : Option Meter
deriving DecidableEq, Repr, Inhabited

namespace Exposition

/-- What is asked of an exposition. -/
inductive Request where
  | make (shared : Bool)
  | fail (kind operation : String)
  | deliver (kind : String) (n : UInt64)
  | count (kind operation : String)
  | text
deriving DecidableEq, Repr, Inhabited

inductive Reply where
  | made
  | nothing
  | count (n : UInt64)
  | text (s : String)
  | failed (why : Failure)
deriving DecidableEq, Repr, Inhabited

def empty : Exposition := ⟨false, none⟩

instance : EmptyCollection Exposition := ⟨empty⟩

/-- What is wrong with a meter whose counters are published already. -/
def published : Failure :=
  .metrics "Duplicate metrics collector registration attempted"

def make (x : Exposition) (shared : Bool) : Exposition × Reply :=
  if shared && x.shared then (x, .failed published)
  else (⟨x.shared || shared, some ∅⟩, .made)

def answer (x : Exposition) : Request → Exposition × Reply
  | .make shared => x.make shared
  | .fail kind operation => ({ x with meter := x.meter.map (·.fail kind operation) }, .nothing)
  | .deliver kind n => ({ x with meter := x.meter.map (·.addDeliveries kind n) }, .nothing)
  | .count kind operation =>
    match x.meter with
    | none => (x, .nothing)
    | some m =>
      let (m, n) := m.readFailures kind operation
      ({ x with meter := some m }, .count n)
  | .text => (x, (x.meter.map fun m => .text m.text).getD .nothing)

def answers : Exposition → List Request → List Reply
  | _, [] => []
  | x, q :: qs =>
    let (x, r) := x.answer q
    r :: answers x qs

end Exposition

end Discovery
