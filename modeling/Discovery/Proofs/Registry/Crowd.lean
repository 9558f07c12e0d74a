import Discovery.Proofs.Tree.Operation
import Discovery.Registry.Nodes
import Mathlib.Logic.Function.Basic
import Mathlib.Logic.Relation

/-!
# Many registries register at once

Registries over one tree may be asked to register at the same time, each of them as often as
anybody likes.  A `Crowd` is the server, the registries and the calls that register, some of which
have not begun yet.  Between two requests of a call anything else may happen: the next request of
another call, and whatever else is done with the server or the registries.

* `go`, `goes`: one call goes on, and calls go on one after the other.
* `Next`: one step, which is that of a call or happens aside.
* `Runs`: any number of steps.
-/

namespace Discovery.Registry

open Discovery.Tree (Request Reply SessionId)

/-- What a call is to register, and the number of the registry through which it does. -/
structure Errand where
  registry : Nat
  endpoint : Endpoint
  data : Payload
  ephemeral : Bool
deriving DecidableEq, Repr

namespace Errand

variable (e : Errand)

def target : String :=
  match e.endpoint.path with
  | .ok path => path
  | .error _ => ""

def action : Action :=
  .register e.endpoint e.data e.ephemeral

/-- What is to stand at the target, under a name for reports. -/
def publication (name : String) : Publication :=
  ⟨name, e.target, e.data.encode, .ofEphemeral e.ephemeral⟩

def leaf : Request :=
  .create e.target e.data.encode (.ofEphemeral e.ephemeral)

def node (s : SessionId) : Tree.Node :=
  ⟨e.data.encode, (Tree.Mode.ofEphemeral e.ephemeral).owner s⟩

end Errand

/-- How far a call has come. -/
inductive Stage where
  | waiting
  | under (c : Nodes.Call)
  | ended
deriving DecidableEq, Repr

/-- A call that registers: the requests that it made so far, with the replies to them, and what
was written down of it. -/
structure Entrant where
  errand : Errand
  stage : Stage
  asked : List (Request × Reply)
  log : List LogLine
deriving DecidableEq, Repr

namespace Entrant

variable (x : Entrant)

def waiting (e : Errand) : Entrant := ⟨e, .waiting, [], []⟩

/-- The call has created the node at its target. -/
def Succeeded : Prop :=
  (x.errand.leaf, .done) ∈ x.asked

/-- The call was to create the node at its target and met one there. -/
def Met : Prop :=
  (x.errand.leaf, .failed (.nodeExists x.errand.target)) ∈ x.asked

def failed : Bool :=
  !x.log.isEmpty

/-- The call after a step, for which it was given replies. -/
def after (replies : List (Request × Reply)) (st : Step Nodes Nodes.Call) : Entrant where
  errand := x.errand
  stage := match st.call with
    | some c => .under c
    | none => .ended
  asked := x.asked ++ replies
  log := x.log ++ st.log

end Entrant

def Nodes.failures (r : Nodes) (operation : String) : UInt64 :=
  r.core.roster.meter.failureCount r.core.roster.kind operation

/-- **A failure is counted for its operation**, and for no other one. -/
theorem Nodes.failures_fail (r : Nodes) (operation name op : String) (why : Failure) :
    (r.fail operation name why).registry.failures op =
      r.failures op + if op = operation then 1 else 0 := by
  have hcount := Meter.failureCount_addFailures r.core.roster.meter r.core.roster.kind operation
    r.core.roster.kind op 1
  simp only [FailureCounter.key_inj] at hcount
  exact hcount

/-- Registries over one server, and the calls that register. -/
structure Crowd where
  server : Tree.Server
  registries : Nat → Nodes
  entrants : List Entrant

namespace Crowd

/-- Nobody has begun. -/
def gather (v : Tree.Server) (rs : Nat → Nodes) (es : List Errand) : Crowd :=
  ⟨v, rs, es.map .waiting⟩

def nodes (s : Crowd) : Table Tree.Node :=
  s.server.tree.nodes

def take (s : Crowd) (i : Nat) (x : Entrant) (replies : List (Request × Reply))
    (st : Step Nodes Nodes.Call) : Crowd where
  server := s.server
  registries := Function.update s.registries x.errand.registry st.registry
  entrants := s.entrants.set i (x.after replies st)

/-- A call goes on: it begins, or it makes the request that it is at and takes the reply. -/
def proceed (s : Crowd) (i : Nat) (x : Entrant) : Option Crowd :=
  let r := s.registries x.errand.registry
  match x.stage with
  | .waiting => some (s.take i x [] (r.start x.errand.action))
  | .under c =>
    match c.need with
    | .ask q =>
      let (server, reply, _) := s.server.answer r.session q
      some ({ s with server }.take i x [(q, reply)] (r.resume c (.answered reply)))
    | _ => none
  | .ended => none

/-- The call that is listed at `i` goes on, unless it is over. -/
def go (s : Crowd) (i : Nat) : Option Crowd :=
  s.entrants[i]?.bind (s.proceed i)

def goes (s : Crowd) (is : List Nat) : Option Crowd :=
  is.foldlM go s

/-- Others use the server, what listeners do included, and use the registries, but change no node
and end no session through which a call registers.  All registrations are among the listed calls,
so no failure of one is counted. -/
structure Aside (s : Crowd) (v : Tree.Server) (rs : Nat → Nodes) : Prop where
  nodes : v.tree.nodes = s.nodes
  session : ∀ k, (rs k).session = (s.registries k).session
  failures : ∀ k, (rs k).failures "register" = (s.registries k).failures "register"
  isClosed : ∀ x ∈ s.entrants,
    s.server.isClosed (s.registries x.errand.registry).session = false →
      v.isClosed (s.registries x.errand.registry).session = false

/-- **One step**: a call goes on, or something happens aside. -/
inductive Next : Crowd → Crowd → Prop
  | go {s s' : Crowd} (i : Nat) : s.go i = some s' → Next s s'
  | aside {s : Crowd} {v : Tree.Server} {rs : Nat → Nodes} : s.Aside v rs →
      Next s ⟨v, rs, s.entrants⟩

abbrev Runs : Crowd → Crowd → Prop := Relation.ReflTransGen Next

theorem runs_of_goes : ∀ {is : List Nat} {s s' : Crowd}, s.goes is = some s' → Runs s s' := by
  intro is
  induction is with
  | nil =>
    intro s s' h
    exact Option.some.inj h ▸ .refl
  | cons i is ih =>
    intro s s' h
    obtain ⟨t, ht, h⟩ := Option.bind_eq_some_iff.1 h
    exact .head (.go i ht) (ih h)

end Crowd

end Discovery.Registry
