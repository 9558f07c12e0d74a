import Discovery.Registry.Nodes
import Discovery.Registry.Services
import Discovery.Naming.Remote.Client

/-!
# Commands

A scenario is a list of commands to a world of sessions, rosters, naming clients and registries,
each known by a name.  Listeners and consumers are known by names too; a script gives one of them
commands of its own, which it carries out when it is called.

* `Command.weight`: a bound on the number of commands and steps that a command leads to.
-/

namespace Discovery.Scenario

open Registry (Action)

/-- What a rule does to a call of a client. -/
inductive Effect where
  /-- The call fails like a call of the tree; without a text of its own the failure names the
  path. -/
  | failNode (why : Tree.Failure) (named : Bool)
  /-- The call fails like a call of a naming client; without a text of its own the failure names
  the service. -/
  | failService (why : Failure) (named : Bool)
  /-- The call waits at the gate. -/
  | hold
deriving DecidableEq, Repr, Inhabited

/-- A rule between a registry and its client.  It meets the calls of one operation, perhaps only
those about one target, and lets the first `skip` of them pass. -/
structure Rule where
  operation : String
  target : Option String
  skip : Nat
  /-- Whether the call is made before it fails. -/
  after : Bool
  effect : Effect
deriving DecidableEq, Repr, Inhabited

/-- What can be asked about the node tree. -/
inductive TreeCommand where
  | connect (s : String)
  | ask (s : String) (q : Tree.Request)
  | close (s : String)
  | isClosed (s : String)
  | drop (s : String)
  | write (path : String) (data : Bytes)
  | data (path : String)
  | isEphemeral (path : String)
  | children (path : String)
  | paths
  | watchCount (path : String)
  | clearHistory
  | history
deriving DecidableEq, Repr, Inhabited

/-- What can be asked about a roster. -/
inductive RosterCommand where
  | attach (key : String) (c : Consumer)
  | detach (key : String) (c : Consumer)
  | tell (key : String) (data : Payload)
  | tellOne (key : String) (c : Consumer) (data : Payload)
  | count (key : String)
  | keys
  | fail (operation key reason : String)
  | keyOf (e : Endpoint)
  | failures (operation : String)
  | meterText
  /-- A new listener of the tree is called once. -/
  | forwardNode (key : String) (event : Tree.Event)
  /-- A new listener of services is called once. -/
  | forwardService (event : Naming.Event)
deriving DecidableEq, Repr, Inhabited

/-- What can be asked about naming clients and the listeners of services. -/
inductive NamingCommand where
  | addListener (service l : String)
  | removeListener (service l : String)
  | listenerCount (service : String)
  | publish (event : Naming.Event)
  | directory (n : String)
  | remote (n : String) (settings : Naming.Remote.Settings)
  | request (n : String) (q : Naming.Request)
  | instances (n service : String)
  | namingListenerCount (n service : String)
  | hasBeat (n service ip : String) (port : UInt16)
  | isPolling (n service : String)
  | drop (n : String)
  /-- The servers of remote clients are told what to reply. -/
  | servers
deriving DecidableEq, Repr, Inhabited

/-- What can be asked of a world. -/
inductive Command where
  | tree (c : TreeCommand)
  | newRoster (u kind : String)
  | roster (u : String) (c : RosterCommand)
  | naming (c : NamingCommand)
  | scriptListener (name : String) (times : Nat) (steps : List Command)
  | scriptNamingListener (name : String) (times : Nat) (steps : List Command)
  | scriptConsumer (name : String) (times : Nat) (panic : Option Panic) (steps : List Command)
  | nodesRegistry (r : String)
  | servicesRegistry (r n : String)
  | act (r : String) (a : Action)
  | hasListener (r key : String)
  | dropRegistry (r : String)
  | inject (r : String) (rule : Rule)
  | release (r : String)
  /-- A task is started.  Only a scenario itself does so, neither a script nor a task. -/
  | spawn (t : String) (step : Command)
deriving Repr, Inhabited

/-- A bound on the number of steps of a call of a registry. -/
def actionSteps (a : Action) : Nat :=
  match a.endpoint.path with
  | .ok p => (Tree.Path.ancestors p).length * 2 + 4
  | .error _ => 4

mutual

/-- A bound on the number of commands and steps of calls that a command leads to, itself
included. -/
def Command.weight : Command → Nat
  | .act _ a => 1 + actionSteps a
  | .scriptListener _ times steps => 1 + times * weights steps
  | .scriptNamingListener _ times steps => 1 + times * weights steps
  | .scriptConsumer _ times _ steps => 1 + times * weights steps
  | .spawn _ step => 1 + step.weight
  | _ => 1

def weights : List Command → Nat
  | [] => 0
  | c :: cs => c.weight + weights cs

end

inductive Answer where
  | done
  | nothing
  | flag (b : Bool)
  | count (n : Nat)
  | text (s : String)
  | texts (l : List String)
  | bytes (b : Bytes)
  | changes (l : List Tree.Change)
  | instances (l : List Naming.Instance)
  | nodeFailed (e : Tree.Failure)
  | failed (e : Failure)
  /-- The settings of a client name no server. -/
  | noServer
  /-- The command had to wait and was given up. -/
  | pending
  /-- The command cannot be carried out where it was given. -/
  | refused
  | panicked
deriving Repr, Inhabited

/-- What happened during a command. -/
inductive Event where
  | node (l : String) (event : Tree.Event)
  | service (l : String) (event : Naming.Event)
  | consumer (c : Consumer) (data : Payload)
  /-- A step of a script is done. -/
  | scripted (name : String) (answer : Answer)
  /-- A task is done. -/
  | finished (task : String) (answer : Answer)
deriving Repr, Inhabited

end Discovery.Scenario
