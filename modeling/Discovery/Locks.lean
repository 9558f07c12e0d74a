import Discovery.Table

/-!
# Locks by key

`Locks` gives out one lock for each key.  A key in use has a slot in the table; who asks for the
lock gets a claim on the slot that the table shows at that moment.  Of the claims on one slot the
oldest owns it, and the others wait in the order in which they came.  An owner learns that it owns
the slot when it is polled; the table must still show that slot then, else it starts again with
the slot that the table shows.  When a held claim is dropped and no other claim is on its slot,
the slot goes too.
-/

namespace Discovery

/-- A claim on a lock: a ticket for whoever waits, the key, the slot it is on, and whether its
holder knows that it has the lock. -/
structure Claim where
  ticket : Nat
  key : String
  slot : Nat
  held : Bool
deriving DecidableEq, Repr, Inhabited

/-- The slots of the keys and the claims on them, oldest first. -/
structure Locks where
  slots : Table Nat
  claims : List Claim
  nextSlot : Nat
  nextTicket : Nat
deriving DecidableEq, Repr, Inhabited

namespace Locks

def empty : Locks := ⟨∅, [], 0, 0⟩

instance : EmptyCollection Locks := ⟨empty⟩

/-- The slot of a key, made if there is none. -/
def slotFor (l : Locks) (key : String) : Locks × Nat :=
  match l.slots.get? key with
  | some n => (l, n)
  | none =>
    ({ l with slots := l.slots.insert key l.nextSlot, nextSlot := l.nextSlot + 1 }, l.nextSlot)

def taken (l : Locks) (slot : Nat) : Bool :=
  l.claims.any (·.slot == slot)

def claim? (l : Locks) (ticket : Nat) : Option Claim :=
  l.claims.find? (·.ticket == ticket)

/-- Whether the holder of a ticket has the lock. -/
def holds (l : Locks) (ticket : Nat) : Bool :=
  (l.claim? ticket).any (·.held)

def owner? (l : Locks) (slot : Nat) : Option Claim :=
  l.claims.find? (·.slot == slot)

/-- Whether the holder of a ticket owns the slot it is on. -/
def owns (l : Locks) (ticket : Nat) : Bool :=
  (l.claim? ticket).any fun c => (l.owner? c.slot).any (·.ticket == ticket)

/-- Lines up for a key.  Who finds the slot free has the lock at once. -/
def join (l : Locks) (ticket : Nat) (key : String) : Locks :=
  let (l', slot) := l.slotFor key
  { l' with claims := l'.claims ++ [⟨ticket, key, slot, !l'.taken slot⟩] }

/-- Asks for the lock of a key and gives a new ticket. -/
def request (l : Locks) (key : String) : Locks × Nat :=
  ({ l with nextTicket := l.nextTicket + 1 }.join l.nextTicket key, l.nextTicket)

def leave (l : Locks) (ticket : Nat) : Locks :=
  { l with claims := l.claims.filter (·.ticket != ticket) }

/-- Marks a claim as held. -/
def settle (l : Locks) (ticket : Nat) : Locks :=
  { l with
    claims := l.claims.map fun c => if c.ticket = ticket then { c with held := true } else c }

/-- Lets a waiting claim look whether its turn has come. -/
def poll (l : Locks) (ticket : Nat) : Locks :=
  match l.claim? ticket with
  | none => l
  | some c =>
    if c.held then l
    else if (l.owner? c.slot).any (·.ticket == ticket) then
      if l.slots.get? c.key = some c.slot then l.settle ticket
      else (l.leave ticket).join ticket c.key
    else l

/-- Gives up a claim, whether it waits or holds the lock. -/
def drop (l : Locks) (ticket : Nat) : Locks :=
  match l.claim? ticket with
  | none => l
  | some c =>
    let l' := l.leave ticket
    if c.held && l'.slots.get? c.key == some c.slot && !l'.taken c.slot then
      { l' with slots := l'.slots.erase c.key }
    else l'

/-- The number of keys with a slot. -/
def size (l : Locks) : Nat :=
  l.slots.size

end Locks

end Discovery
