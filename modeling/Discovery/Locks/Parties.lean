import Discovery.Locks

/-!
# Parties at locks

Parties with names ask for locks, look whether their turn has come, and leave.  A party has one
claim at a time: one that asks again gives up the claim that it has.
-/

namespace Discovery.Locks

/-- What a party does. -/
inductive Move where
  | ask (key : String)
  | look
  | leave
deriving DecidableEq, Repr, Inhabited

/-- How a party stands: without a claim, waiting, or with its lock. -/
inductive Standing where
  | absent
  | waiting
  | holding
deriving DecidableEq, Repr, Inhabited

/-- Locks, and the tickets of the parties that have claims. -/
structure Parties where
  locks : Locks
  tickets : Table Nat
deriving DecidableEq, Repr, Inhabited

namespace Parties

def empty : Parties := ⟨∅, ∅⟩

instance : EmptyCollection Parties := ⟨empty⟩

def leave (p : Parties) (name : String) : Parties :=
  match p.tickets.get? name with
  | some t => ⟨p.locks.drop t, p.tickets.erase name⟩
  | none => p

def ask (p : Parties) (name key : String) : Parties :=
  let p := p.leave name
  let (locks, t) := p.locks.request key
  ⟨locks, p.tickets.insert name t⟩

def look (p : Parties) (name : String) : Parties :=
  match p.tickets.get? name with
  | some t => { p with locks := p.locks.poll t }
  | none => p

def move (p : Parties) (name : String) : Move → Parties
  | .ask key => p.ask name key
  | .look => p.look name
  | .leave => p.leave name

def standing (p : Parties) (name : String) : Standing :=
  match p.tickets.get? name with
  | some t => if p.locks.holds t then .holding else .waiting
  | none => .absent

end Parties

/-- What is seen after a move: how the party stands, and how many keys have a slot. -/
structure Sight where
  standing : Standing
  size : Nat
deriving DecidableEq, Repr, Inhabited

/-- What is seen after each of the moves of parties. -/
def watchMoves : Parties → List (String × Move) → List Sight
  | _, [] => []
  | p, (name, m) :: ms =>
    let p := p.move name m
    ⟨p.standing name, p.locks.size⟩ :: watchMoves p ms

end Discovery.Locks
