import Discovery.Registry.Core
import Discovery.Naming.Directory

/-!
# The registry over a naming client

An endpoint is registered as an instance at its host and port, under a service that is named like
its key.  Who subscribes to an endpoint listens to that service.  The registry remembers which kind
of instance it registered under a key, since the kind has to be named when the instance is to go;
what it did not register it takes for ephemeral.
-/

namespace Discovery.Registry

open Naming (Request)

/-- A registry whose client is a naming client. -/
structure Services where
  core : Core
  /-- Whether what was registered under a key was ephemeral. -/
  registered : Table Bool
deriving DecidableEq, Repr, Inhabited

namespace Services

def kind : String := "nacos"

def new (id : Nat) : Services :=
  ⟨.new id kind, ∅⟩

/-- A call in progress, named for what it waits for. -/
inductive Call where
  /-- Registering: the instance is registered. -/
  | register (key : String) (i : Naming.Instance)
  /-- Unregistering: the instance goes. -/
  | deregister (key ip : String) (port : UInt16) (ephemeral : Bool)
  /-- Subscribing: the lock. -/
  | enter (v : Visit)
  /-- Subscribing: the listener is put up. -/
  | subscribe (v : Visit) (l : Listener)
  /-- Unsubscribing: the lock. -/
  | enterOut (v : Visit)
  /-- Unsubscribing: the listener is taken down. -/
  | unsubscribe (v : Visit) (l : Listener)
deriving DecidableEq, Repr

def Call.need : Call → Need Request
  | .register key i => .ask (.register key i)
  | .deregister key ip port ephemeral => .ask (.deregister key ip port ephemeral)
  | .enter v => .turn v.ticket
  | .subscribe v l => .ask (.subscribe v.key l)
  | .enterOut v => .turn v.ticket
  | .unsubscribe v l => .ask (.unsubscribe v.key l)

/-- The visit of a call that takes a lock. -/
def Call.visit? : Call → Option Visit
  | .enter v | .subscribe v _ | .enterOut v | .unsubscribe v _ => some v
  | _ => none

def Call.stepsLeft : Call → Nat
  | .enter _ | .enterOut _ => 2
  | _ => 1

/-! ## Steps -/

def goOn (r : Services) (c : Call) : Step Services Call :=
  ⟨r, some c, []⟩

def finish (r : Services) : Step Services Call :=
  ⟨r, none, []⟩

def fail (r : Services) (operation name : String) (why : Failure) : Step Services Call :=
  let (core, log) := r.core.fail operation name why.message
  ⟨{ r with core }, none, log⟩

def depart (v : Visit) (s : Step Services Call) : Step Services Call :=
  { s with registry := { s.registry with core := s.registry.core.depart v } }

/-- The instance that stands for an endpoint. -/
def instanceOf (e : Endpoint) (data : Payload) (ephemeral : Bool) : Naming.Instance :=
  { Naming.Instance.ofAddress e.host e.port with ephemeral, metadata := data }

def start (r : Services) : Action → Step Services Call
  | .register e data ephemeral =>
    match e.key r.core.kind with
    | .ok key => r.goOn (.register key (instanceOf e data ephemeral))
    | .error f => r.fail "register" e.display f.toFailure
  | .unregister e =>
    match e.key r.core.kind with
    | .ok key => r.goOn (.deregister key e.host e.port (r.registered.getD key true))
    | .error f => r.fail "unregister" e.display f.toFailure
  | .subscribe e c =>
    match e.key r.core.kind with
    | .ok key =>
      let (core, v) := r.core.lineUp key "" c
      { r with core }.goOn (.enter v)
    | .error f => r.fail "subscribe" e.display f.toFailure
  | .unsubscribe e c =>
    match e.key r.core.kind with
    | .ok key =>
      let (core, v) := r.core.lineUp key "" c
      { r with core }.goOn (.enterOut v)
    | .error f => r.fail "unsubscribe" e.display f.toFailure

def admitted (r : Services) : Call → Step Services Call
  | .enter v =>
    let core := r.core.attach v
    if core.hasListener v.key then depart v { r with core }.finish
    else
      let (core, l) := core.makeListener v.key
      { r with core }.goOn (.subscribe v l)
  | .enterOut v =>
    let core := r.core.detach v
    if 0 < core.roster.count v.key then depart v { r with core }.finish
    else
      match core.forgetListener v.key with
      | (core, some l) => { r with core }.goOn (.unsubscribe v l)
      | (core, none) => depart v { r with core }.finish
  | c => r.goOn c

/-- Takes back a listener that could not be put up. -/
def takeBack (r : Services) (key : String) (l : Listener) : Services :=
  if (r.core.listeners.get? key).map (r.core.listener key) = some l then
    { r with core := { r.core with listeners := r.core.listeners.erase key } }
  else r

def answered (r : Services) (c : Call) (reply : Except Failure Unit) : Step Services Call :=
  match c, reply with
  | .register key i, .ok _ =>
    { r with registered := r.registered.insert key i.ephemeral }.finish
  | .register key _, .error e => r.fail "register" key e
  | .deregister key _ _ _, .ok _ => { r with registered := r.registered.erase key }.finish
  | .deregister key _ _ _, .error e => r.fail "unregister" key e
  | .subscribe v _, .ok _ => depart v r.finish
  | .subscribe v l, .error e => depart v ((r.takeBack v.key l).fail "subscribe" v.key e)
  | .unsubscribe v _, .ok _ => depart v r.finish
  | .unsubscribe v _, .error e => depart v (r.fail "unsubscribe" v.key e)
  | c, _ => r.goOn c

def resume (r : Services) (c : Call) : Signal (Except Failure Unit) → Step Services Call
  | .admitted => r.admitted c
  | .answered reply => r.answered c reply
  | .handed => r.goOn c

/-- Gives up a call in progress.  What it has done stays done, and its lock is free again. -/
def cancel (r : Services) (c : Call) : Services :=
  match c.visit? with
  | some v => { r with core := r.core.depart v }
  | none => r

end Services

end Discovery.Registry
