import Discovery.Registry.Core
import Discovery.Tree.Server

/-!
# The registry over the node tree

An endpoint is registered as a node at its path, whose missing ancestors are created first.  Who
subscribes to an endpoint has its node watched and is handed the data that it has already.

Registering an endpoint again replaces its node.  Of the failures of single requests two are
tolerated: a node that is to be deleted may be gone already, and an ancestor that is to be created
may have come meanwhile.
-/

namespace Discovery.Registry

open Discovery.Tree (Request Reply)

/-- What is to stand at a path. -/
structure Publication where
  /-- How the endpoint is named in reports. -/
  name : String
  path : String
  data : Bytes
  mode : Tree.Mode
deriving DecidableEq, Repr, Inhabited

/-- A registry whose client is a session of the tree. -/
structure Nodes where
  core : Core
  session : Tree.SessionId
deriving DecidableEq, Repr, Inhabited

namespace Nodes

def kind : String := "zookeeper"

def new (id : Nat) (session : Tree.SessionId) : Nodes :=
  ⟨.new id kind, session⟩

/-- A call in progress, named for what it waits for. -/
inductive Call where
  /-- Registering: is there a node already? -/
  | checkLeaf (p : Publication)
  /-- Registering: the node that is there goes. -/
  | clearLeaf (p : Publication)
  /-- Registering: is there the ancestor `here`?  Those above it are still to be looked at, those
  below it are missing. -/
  | climb (p : Publication) (here : String) (above missing : List String)
  /-- Registering: a missing ancestor is created, the others after it. -/
  | build (p : Publication) (here : String) (rest : List String)
  /-- Registering: the node is created. -/
  | putLeaf (p : Publication)
  /-- Unregistering: is there a node? -/
  | findLeaf (name path : String)
  /-- Unregistering: the node goes. -/
  | removeLeaf (name path : String)
  /-- Subscribing: the lock. -/
  | enter (v : Visit)
  /-- Subscribing: the node is watched. -/
  | watch (v : Visit) (l : Listener)
  /-- Subscribing: the data that the node has already. -/
  | read (v : Visit)
  /-- Subscribing: the consumer is handed the data. -/
  | hand (v : Visit) (data : Payload)
  /-- Unsubscribing: the lock. -/
  | enterOut (v : Visit)
  /-- Unsubscribing: the node is watched no longer. -/
  | unwatch (v : Visit) (l : Listener)
deriving DecidableEq, Repr

def Call.need : Call → Need Request
  | .checkLeaf p => .ask (.check p.path)
  | .clearLeaf p => .ask (.delete p.path)
  | .climb _ here _ _ => .ask (.check here)
  | .build _ here _ => .ask (.create here [] .persistent)
  | .putLeaf p => .ask (.create p.path p.data p.mode)
  | .findLeaf _ path => .ask (.check path)
  | .removeLeaf _ path => .ask (.delete path)
  | .enter v => .turn v.ticket
  | .watch v l => .ask (.watch v.path l)
  | .read v => .ask (.read v.path)
  | .hand v data => .hand v.key v.consumer data
  | .enterOut v => .turn v.ticket
  | .unwatch v l => .ask (.unwatch v.path l)

/-- The visit of a call that takes a lock. -/
def Call.visit? : Call → Option Visit
  | .enter v | .watch v _ | .read v | .hand v _ | .enterOut v | .unwatch v _ => some v
  | _ => none

/-- A bound on the number of steps that a call still takes. -/
def Call.stepsLeft : Call → Nat
  | .checkLeaf p => (Tree.Path.ancestors p.path).length * 2 + 4
  | .clearLeaf p => (Tree.Path.ancestors p.path).length * 2 + 3
  | .climb _ _ above missing => above.length * 2 + missing.length + 4
  | .build _ _ rest => rest.length + 2
  | .putLeaf _ => 1
  | .findLeaf _ _ => 2
  | .removeLeaf _ _ => 1
  | .enter _ => 4
  | .watch _ _ => 3
  | .read _ => 2
  | .hand _ _ => 1
  | .enterOut _ => 2
  | .unwatch _ _ => 1

/-! ## Steps -/

def goOn (r : Nodes) (c : Call) : Step Nodes Call :=
  ⟨r, some c, []⟩

def finish (r : Nodes) : Step Nodes Call :=
  ⟨r, none, []⟩

def fail (r : Nodes) (operation name : String) (why : Failure) : Step Nodes Call :=
  let (core, log) := r.core.fail operation name why.message
  ⟨{ r with core }, none, log⟩

def depart (v : Visit) (s : Step Nodes Call) : Step Nodes Call :=
  { s with registry := { s.registry with core := s.registry.core.depart v } }

/-- Creates the missing ancestors, the topmost first, and then the node. -/
def buildUp (r : Nodes) (p : Publication) : List String → Step Nodes Call
  | [] => r.goOn (.putLeaf p)
  | here :: rest => r.goOn (.build p here rest)

/-- Looks for the lowest ancestor that is there. -/
def climbUp (r : Nodes) (p : Publication) (above missing : List String) : Step Nodes Call :=
  match above with
  | [] => r.buildUp p missing
  | here :: above => r.goOn (.climb p here above missing)

/-- The key and the path of an endpoint that is subscribed to. -/
def address (r : Nodes) (e : Endpoint) : Except Endpoint.Fault (String × String) := do
  let key ← e.key r.core.kind
  let path ← e.path
  return (key, path)

def start (r : Nodes) : Action → Step Nodes Call
  | .register e data ephemeral =>
    match e.path with
    | .ok path =>
      r.goOn (.checkLeaf ⟨e.describe r.core.kind, path, data.encode, .ofEphemeral ephemeral⟩)
    | .error f => r.fail "register" (e.describe r.core.kind) f.toFailure
  | .unregister e =>
    match e.path with
    | .ok path => r.goOn (.findLeaf (e.describe r.core.kind) path)
    | .error f => r.fail "unregister" (e.describe r.core.kind) f.toFailure
  | .subscribe e c =>
    match r.address e with
    | .ok (key, path) =>
      let (core, v) := r.core.lineUp key path c
      { r with core }.goOn (.enter v)
    | .error f => r.fail "subscribe" (e.describe r.core.kind) f.toFailure
  | .unsubscribe e c =>
    match r.address e with
    | .ok (key, path) =>
      let (core, v) := r.core.lineUp key path c
      { r with core }.goOn (.enterOut v)
    | .error f => r.fail "unsubscribe" (e.describe r.core.kind) f.toFailure

/-- The listener of a key, made if there is none. -/
def listenerFor (k : Core) (key : String) : Core × Listener :=
  match k.listeners.get? key with
  | some n => (k, k.listener key n)
  | none => k.makeListener key

/-- What is written down about a node whose data is no payload. -/
def undecodable : LogLine where
  level := "WARN"
  message := "Ignoring undecodable data"
  fields := []

/-- Goes on when the lock is there. -/
def admitted (r : Nodes) : Call → Step Nodes Call
  | .enter v =>
    let (core, l) := listenerFor (r.core.attach v) v.key
    { r with core }.goOn (.watch v l)
  | .enterOut v =>
    let core := r.core.detach v
    if 0 < core.roster.count v.key then depart v { r with core }.finish
    else
      match core.forgetListener v.key with
      | (core, some l) => { r with core }.goOn (.unwatch v l)
      | (core, none) => depart v { r with core }.finish
  | c => r.goOn c

def answered (r : Nodes) (c : Call) (reply : Reply) : Step Nodes Call :=
  match c, reply with
  | .checkLeaf p, .failed e => r.fail "register" p.name e.toFailure
  | .checkLeaf p, .present true => r.goOn (.clearLeaf p)
  | .checkLeaf p, _ => r.climbUp p (Tree.Path.ancestors p.path) []
  | .clearLeaf p, .failed (.noNode _) => r.climbUp p (Tree.Path.ancestors p.path) []
  | .clearLeaf p, .failed e => r.fail "register" p.name e.toFailure
  | .clearLeaf p, _ => r.climbUp p (Tree.Path.ancestors p.path) []
  | .climb p _ _ _, .failed e => r.fail "register" p.name e.toFailure
  | .climb p _ _ missing, .present true => r.buildUp p missing
  | .climb p here above missing, _ => r.climbUp p above (here :: missing)
  | .build p _ rest, .failed (.nodeExists _) => r.buildUp p rest
  | .build p _ _, .failed e => r.fail "register" p.name e.toFailure
  | .build p _ rest, _ => r.buildUp p rest
  | .putLeaf p, .failed e => r.fail "register" p.name e.toFailure
  | .putLeaf _, _ => r.finish
  | .findLeaf name _, .failed e => r.fail "unregister" name e.toFailure
  | .findLeaf name path, .present true => r.goOn (.removeLeaf name path)
  | .findLeaf _ _, _ => r.finish
  | .removeLeaf _ _, .failed (.noNode _) => r.finish
  | .removeLeaf name _, .failed e => r.fail "unregister" name e.toFailure
  | .removeLeaf _ _, _ => r.finish
  | .watch v _, .failed e => depart v (r.fail "subscribe" v.key e.toFailure)
  | .watch v _, _ => r.goOn (.read v)
  | .read v, .failed e => depart v (r.fail "subscribe" v.key e.toFailure)
  | .read v, .found (some bytes) =>
    match Payload.decode bytes with
    | .ok data => r.goOn (.hand v data)
    | .error _ => depart v { r.finish with log := [undecodable] }
  | .read v, _ => depart v r.finish
  | .unwatch v _, .failed e => depart v (r.fail "unsubscribe" v.key e.toFailure)
  | .unwatch v _, _ => depart v r.finish
  | c, _ => r.goOn c

def handed (r : Nodes) : Call → Step Nodes Call
  | .hand v _ => depart v r.finish
  | c => r.goOn c

/-- Goes on with what a call needed. -/
def resume (r : Nodes) (c : Call) : Signal Reply → Step Nodes Call
  | .admitted => r.admitted c
  | .answered reply => r.answered c reply
  | .handed => r.handed c

/-- Gives up a call in progress.  What it has done stays done, and its lock is free again. -/
def cancel (r : Nodes) (c : Call) : Nodes :=
  match c.visit? with
  | some v => { r with core := r.core.depart v }
  | none => r

end Nodes

end Discovery.Registry
