import Discovery.Listener
import Discovery.Locks
import Discovery.Roster

/-!
# What all registries share

A registry keeps one listener for each key that has consumers.  Attaching and detaching the
consumers of a key and putting up and taking down its listener happen under the lock of the key.

A call of a registry goes on in steps.  Between two steps it needs something from outside: its turn
at a lock, an answer of the client, or that a consumer is handed data.  So a call in progress is a
value, and calls can be interleaved at these places in any order.
-/

namespace Discovery.Registry

/-- What a registry is asked to do. -/
inductive Action where
  | register (e : Endpoint) (data : Payload) (ephemeral : Bool)
  | unregister (e : Endpoint)
  | subscribe (e : Endpoint) (c : Consumer)
  | unsubscribe (e : Endpoint) (c : Consumer)
deriving DecidableEq, Repr, Inhabited

def Action.endpoint : Action → Endpoint
  | .register e _ _ | .unregister e | .subscribe e _ | .unsubscribe e _ => e

/-- What a call needs to go on: its turn at a lock, an answer to a request of type `κ`, or that a
consumer is handed data. -/
inductive Need (κ : Type) where
  | turn (ticket : Nat)
  | ask (request : κ)
  | hand (key : String) (c : Consumer) (data : Payload)
deriving DecidableEq, Repr

/-- The ticket of a call that needs its turn at a lock. -/
def Need.turn? {κ : Type} : Need κ → Option Nat
  | .turn ticket => some ticket
  | _ => none

/-- What a call is given: its turn, an answer of type `ρ`, or word that the data was handed on. -/
inductive Signal (ρ : Type) where
  | admitted
  | answered (reply : ρ)
  | handed
deriving DecidableEq, Repr

/-- What a step of a call leads to: the registry, the call unless it is finished, and what is
written down. -/
structure Step (α β : Type) where
  registry : α
  call : Option β
  log : List LogLine

/-- A call that attaches or detaches a consumer: the key and its path, the consumer, and the ticket
for the lock of the key. -/
structure Visit where
  key : String
  path : String
  consumer : Consumer
  ticket : Nat
deriving DecidableEq, Repr, Inhabited

/-- The state that all registries have. -/
structure Core where
  id : Nat
  roster : Roster
  /-- The serial number of the listener of each key. -/
  listeners : Table Nat
  locks : Locks
  nextSerial : Nat
deriving DecidableEq, Repr, Inhabited

namespace Core

def new (id : Nat) (kind : String) : Core where
  id
  roster := .ofKind kind
  listeners := ∅
  locks := ∅
  nextSerial := 0

def kind (k : Core) : String :=
  k.roster.kind

def hasListener (k : Core) (key : String) : Bool :=
  k.listeners.contains key

def listener (k : Core) (key : String) (serial : Nat) : Listener :=
  .forwarder k.id key serial

theorem listener_inj {k : Core} {a b : String} {i j : Nat}
    (h : k.listener a i = k.listener b j) : a = b ∧ i = j := by
  unfold listener at h
  injection h with _ hk hi
  exact ⟨hk, hi⟩

def makeListener (k : Core) (key : String) : Core × Listener :=
  ({ k with listeners := k.listeners.insert key k.nextSerial, nextSerial := k.nextSerial + 1 },
    k.listener key k.nextSerial)

def forgetListener (k : Core) (key : String) : Core × Option Listener :=
  match k.listeners.get? key with
  | none => (k, none)
  | some n => ({ k with listeners := k.listeners.erase key }, some (k.listener key n))

/-- Counts a failure and writes it down. -/
def fail (k : Core) (operation name reason : String) : Core × List LogLine :=
  ({ k with roster := k.roster.fail operation }, [k.roster.failureLine operation name reason])

def lineUp (k : Core) (key path : String) (c : Consumer) : Core × Visit :=
  let (locks, ticket) := k.locks.request key
  ({ k with locks }, ⟨key, path, c, ticket⟩)

/-- Gives up the lock of a visit, or the place in the line. -/
def depart (k : Core) (v : Visit) : Core :=
  { k with locks := k.locks.drop v.ticket }

def attach (k : Core) (v : Visit) : Core :=
  { k with roster := k.roster.attach v.key v.consumer }

def detach (k : Core) (v : Visit) : Core :=
  { k with roster := k.roster.detach v.key v.consumer }

end Core

end Discovery.Registry
