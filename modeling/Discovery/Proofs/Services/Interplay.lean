import Discovery.Proofs.Naming.Provider
import Discovery.Proofs.Registry.Interplay
import Discovery.Proofs.Registry.Queue
import Discovery.Registry.Services

/-!
# Interplay over a naming client

A registry over a naming client serves many calls at once, while others use the same client.  As
over the node tree, an interplay goes on in moves that may come in any order: a call begins, a call
gets what it needs and goes on until it needs something again, a request of a call fails without
effect, or something else happens to the client.

A consumer may act when it is told something.  What it does then are moves like any others, and all
that telling changes in a registry is what it has counted.

* `step`, `run`: one move, and a list of moves.
* `Effect`, `step_effect`: what a move comes to.
-/

namespace Discovery.Registry.Services

open Naming (Provider)

/-- A registry over a naming client with its calls in progress, which are known by numbers. -/
structure Interplay (κ : Type) where
  client : κ
  registry : Services
  calls : Nat → Option Call
  /-- The listeners that were to be taken down when the request for that failed. -/
  lost : List Listener

/-- What may happen next. -/
inductive Move (κ ω : Type) where
  /-- A call begins under a number that is free. -/
  | start (n : Nat) (a : Action)
  /-- A call gets what it needs and goes on, or finds its lock taken, or no answer. -/
  | go (n : Nat) (w : ω)
  /-- The request of a call fails and does nothing. -/
  | fail (n : Nat) (why : Failure)
  /-- Somebody else makes a request. -/
  | request (w : ω) (q : Naming.Request)
  /-- The client goes on by itself. -/
  | change (c : κ)
  /-- The registry counts. -/
  | count (m : Meter)

namespace Interplay

variable {κ ω : Type}

abbrev core (s : Interplay κ) : Core :=
  s.registry.core

abbrev consumers (s : Interplay κ) (k : String) : List Consumer :=
  s.core.roster.consumers k

def begin (client : κ) (id : Nat) : Interplay κ :=
  ⟨client, .new id, fun _ => none, []⟩

/-! ## Moves -/

def look (s : Interplay κ) (ticket : Nat) : Interplay κ :=
  { s with registry.core.locks := s.core.locks.poll ticket }

/-- What a call needs is got, unless it is a lock that is taken or there is no answer. -/
def provide (p : Provider κ ω) (s : Interplay κ) (w : ω) (c : Call) :
    Interplay κ × Option (Signal (Except Failure Unit)) :=
  match c.need with
  | .turn ticket =>
    let s := s.look ticket
    (s, if s.core.locks.holds ticket then some .admitted else none)
  | .ask q =>
    let (client, reply) := p.answer s.client w q
    ({ s with client }, reply.map .answered)
  | .hand _ _ _ => (s, some .handed)

def take (s : Interplay κ) (n : Nat) (st : Step Services Call) : Interplay κ :=
  { s with registry := st.registry, calls := Function.update s.calls n st.call }

def go (p : Provider κ ω) (s : Interplay κ) (n : Nat) (w : ω) (c : Call) : Interplay κ :=
  match s.provide p w c with
  | (s, none) => s
  | (s, some signal) => s.take n (s.registry.resume c signal)

/-- A request has failed and done nothing: a listener that it was to take down is lost. -/
def lose (s : Interplay κ) : Naming.Request → Interplay κ
  | .unsubscribe _ l => { s with lost := s.lost ++ [l] }
  | _ => s

/-- **One move**, if it is possible.  Nobody else has the listeners of the registry, and by itself
the client does not change who listens to what. -/
def step (p : Provider κ ω) (s : Interplay κ) : Move κ ω → Option (Interplay κ)
  | .start n a =>
    match s.calls n with
    | none => some (s.take n (s.registry.start a))
    | some _ => none
  | .go n w => (s.calls n).map (s.go p n w)
  | .fail n why =>
    match s.calls n with
    | none => none
    | some c =>
      match c.need with
      | .ask q => some ((s.lose q).take n (s.registry.resume c (.answered (.error why))))
      | _ => none
  | .request w q =>
    if q.listener?.any (·.isOf s.core.id) then none
    else some { s with client := (p.answer s.client w q).1 }
  | .change c => if p.audience c = p.audience s.client then some { s with client := c } else none
  | .count m => some { s with registry.core.roster.meter := m }

def run (p : Provider κ ω) (s : Interplay κ) (ms : List (Move κ ω)) : Option (Interplay κ) :=
  ms.foldlM (step p) s

/-- The listeners of the registry at a service. -/
def listenersAt (p : Provider κ ω) (s : Interplay κ) (service : String) : List Listener :=
  ((p.audience s.client).of service).filter (·.isOf s.core.id)

end Interplay

/-! ## Steps of calls -/

def withMeter (r : Services) (m : Meter) : Services :=
  { r with core.roster.meter := m }

def Call.inside : Call → Bool
  | .subscribe _ _ | .unsubscribe _ _ => true
  | _ => false

/-- The visits of calls in progress, and whether each has passed its lock. -/
def visits (calls : Nat → Option Call) (n : Nat) : Option (Visit × Bool) :=
  (calls n).bind fun c => c.visit?.map fun v => (v, c.inside)

theorem visits_eq_some_iff {calls : Nat → Option Call} {n : Nat} {v : Visit} {b : Bool} :
    visits calls n = some (v, b) ↔ ∃ c, calls n = some c ∧ c.visit? = some v ∧ c.inside = b := by
  unfold visits
  rw [Option.bind_eq_some_iff]
  refine exists_congr fun c => and_congr_right fun _ => ?_
  rw [Option.map_eq_some_iff]
  constructor
  · rintro ⟨w, hw, he⟩
    cases he
    exact ⟨hw, rfl⟩
  · rintro ⟨hv, rfl⟩
    exact ⟨v, hv, rfl⟩

theorem visits_update (calls : Nat → Option Call) (n : Nat) (d : Option Call) :
    visits (Function.update calls n d) =
      Function.update (visits calls) n (d.bind fun c => c.visit?.map fun v => (v, c.inside)) := by
  funext m
  unfold visits
  rw [Function.update_apply, Function.update_apply]
  split <;> rfl

/-- A step after which the registry has at most counted and remembered what it registered, and the
call is not on a key. -/
def Plain (r : Services) (st : Step Services Call) : Prop :=
  (∃ m, st.registry.core = (r.withMeter m).core) ∧ ∀ c, st.call = some c → c.visit? = none

theorem plain_goOn (r : Services) {c : Call} (hc : c.visit? = none) : r.Plain (r.goOn c) :=
  ⟨⟨r.core.roster.meter, rfl⟩, fun _ h => Option.some.inj h ▸ hc⟩

theorem plain_fail (r : Services) (operation name : String) (why : Failure) :
    r.Plain (r.fail operation name why) :=
  ⟨⟨_, rfl⟩, fun _ h => nomatch h⟩

/-- **A call that is not on a key leaves the keys alone.** -/
theorem plain_answered (r : Services) {c : Call} (hc : c.visit? = none)
    (reply : Except Failure Unit) : r.Plain (r.answered c reply) := by
  cases c with
  | register key i =>
    cases reply with
    | ok _ => exact ⟨⟨r.core.roster.meter, rfl⟩, fun _ h => nomatch h⟩
    | error e => exact plain_fail ..
  | deregister key ip port ephemeral =>
    cases reply with
    | ok _ => exact ⟨⟨r.core.roster.meter, rfl⟩, fun _ h => nomatch h⟩
    | error e => exact plain_fail ..
  | _ => exact nomatch hc

theorem need_of_plain {c : Call} (hc : c.visit? = none) :
    ∃ q, c.need = .ask q ∧ q.listener? = none := by
  cases c <;> first | exact ⟨_, rfl, rfl⟩ | exact nomatch hc

end Discovery.Registry.Services
