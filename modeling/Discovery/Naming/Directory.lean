import Discovery.Listener
import Discovery.Naming.Instance

/-!
# Naming directories

A directory keeps the instances of each service and tells the listeners of a service whenever they
change.  A request is applied first and gives back the deliveries it owes: one for each listener
of the service at that moment, in the order in which the listeners came.

* `Audience.of_add`, `Audience.of_remove`: who listens to a service afterwards.
-/

namespace Discovery.Naming

/-- What a listener is told: the instances that a service has now. -/
structure Event where
  service : String
  instances : List Instance
deriving DecidableEq, Repr, Inhabited

/-- A call of a listener that a change owes. -/
structure Delivery where
  listener : Listener
  event : Event
deriving DecidableEq, Repr, Inhabited

/-- The listeners of each service, in the order in which they came. -/
structure Audience where
  listeners : Table (List Listener)
deriving DecidableEq, Repr, Inhabited

namespace Audience

def empty : Audience := ⟨∅⟩

instance : EmptyCollection Audience := ⟨empty⟩

def of (a : Audience) (service : String) : List Listener :=
  a.listeners.getD service []

/-- Adds a listener that is not there yet. -/
def add (a : Audience) (service : String) (l : Listener) : Audience :=
  let ls := a.of service
  ⟨a.listeners.insert service (if ls.contains l then ls else ls ++ [l])⟩

/-- Removes a listener.  A service without listeners leaves the table. -/
def remove (a : Audience) (service : String) (l : Listener) : Audience :=
  match a.listeners.get? service with
  | none => a
  | some ls =>
    let left := ls.filter (· != l)
    ⟨if left.isEmpty then a.listeners.erase service else a.listeners.insert service left⟩

/-- The deliveries that an event owes. -/
def publish (a : Audience) (e : Event) : List Delivery :=
  (a.of e.service).map fun l => ⟨l, e⟩

/-! ### The listeners of a service -/

@[simp] theorem of_empty (service : String) : (∅ : Audience).of service = [] := rfl

theorem of_add (a : Audience) (service s : String) (l : Listener) :
    (a.add service l).of s =
      if s = service then
        if (a.of service).contains l then a.of service else a.of service ++ [l]
      else a.of s := by
  simp only [add, of, Table.getD, Table.get?_insert]
  by_cases h : s = service <;> simp [h]

theorem of_remove (a : Audience) (service s : String) (l : Listener) :
    (a.remove service l).of s =
      if s = service then (a.of service).filter (· != l) else a.of s := by
  unfold remove
  cases h : a.listeners.get? service with
  | none =>
    by_cases hs : s = service
    · subst hs
      simp [of, Table.getD, h]
    · simp [hs]
  | some ls =>
    by_cases hs : s = service
    · subst hs
      by_cases he : (ls.filter (· != l)).isEmpty
      · simp [of, Table.getD, h, List.isEmpty_iff.1 he]
      · simp [of, Table.getD, h, he]
    · by_cases he : (ls.filter (· != l)).isEmpty <;>
        simp [of, Table.getD, he, hs, Table.get?_erase_of_ne, Table.get?_insert_of_ne]

end Audience

/-- What is asked of a naming client. -/
inductive Request where
  | register (service : String) (inst : Instance)
  | deregister (service ip : String) (port : UInt16) (ephemeral : Bool)
  | subscribe (service : String) (listener : Listener)
  | unsubscribe (service : String) (listener : Listener)
deriving DecidableEq, Repr, Inhabited

def Request.service : Request → String
  | .register s _ | .deregister s _ _ _ | .subscribe s _ | .unsubscribe s _ => s

/-- The instances of each service and who listens. -/
structure Directory where
  services : Table (List Instance)
  audience : Audience
deriving DecidableEq, Repr, Inhabited

namespace Directory

def empty : Directory := ⟨∅, ∅⟩

instance : EmptyCollection Directory := ⟨empty⟩

/-- The instances of a service, in the order in which their addresses came. -/
def instances (d : Directory) (service : String) : List Instance :=
  d.services.getD service []

/-- What a listener of a service is told now. -/
def event (d : Directory) (service : String) : Event :=
  ⟨service, d.instances service⟩

/-- Puts an instance at the place of the one with its address, or at the end. -/
def place (i : Instance) : List Instance → List Instance
  | [] => [i]
  | j :: js => if j.isAt i.ip i.port then i :: js else j :: place i js

def register (d : Directory) (service : String) (i : Instance) : Directory :=
  { d with services := d.services.insert service (place { i with service } (d.instances service)) }

def setInstances (d : Directory) (service : String) (is : List Instance) : Directory :=
  { d with services :=
      if is.isEmpty then d.services.erase service else d.services.insert service is }

/-- The instances that stay when one is deregistered: the kind has to match too. -/
def staying (d : Directory) (service ip : String) (port : UInt16) (ephemeral : Bool) :
    List Instance :=
  (d.instances service).filter fun i => !(i.isAt ip port && i.ephemeral == ephemeral)

def answer (d : Directory) : Request → Directory × List Delivery
  | .register service i =>
    let d' := d.register service i
    (d', d'.audience.publish (d'.event service))
  | .deregister service ip port ephemeral =>
    let left := d.staying service ip port ephemeral
    if left.length = (d.instances service).length then (d, [])
    else
      let d' := d.setInstances service left
      (d', d'.audience.publish (d'.event service))
  | .subscribe service l =>
    let d' := { d with audience := d.audience.add service l }
    let e := d'.event service
    (d', if e.instances.isEmpty then [] else [⟨l, e⟩])
  | .unsubscribe service l =>
    ({ d with audience := d.audience.remove service l }, [])

end Directory

end Discovery.Naming
