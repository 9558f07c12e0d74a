import Discovery.Scenario.Command

/-!
# Worlds

A world holds one tree server, the named sessions, rosters, naming clients and registries of a
scenario, the scripts of those who are called, and the tasks that run beside it.  The servers of
remote naming clients cannot be reached.

A session belongs to a name or to a registry.  When that goes, the session ends, but not while an
operation uses it.

What happens when a scripted party is called is a parameter of the functions below, a `Reaction`.
-/

namespace Discovery.Scenario

open Registry (Nodes Services Need)

/-- Whoever can be called. -/
inductive Actor where
  | listener (name : String)
  | namingListener (name : String)
  | consumer (name : String)
deriving DecidableEq, Repr, Inhabited

def Actor.name : Actor → String
  | .listener n | .namingListener n | .consumer n => n

/-- The commands that an actor carries out the next `left` times it is called, and what it panics
with afterwards. -/
structure Script where
  left : Nat
  steps : List Command
  panic : Option Panic
deriving Repr, Inhabited

inductive Client where
  | directory (d : Naming.Directory)
  | remote (c : Naming.Remote.Client)
deriving Repr, Inhabited

/-- A registry, and for one over a naming client the number of that client. -/
inductive Adapter where
  | nodes (r : Nodes)
  | services (r : Services) (client : Nat)
deriving Repr, Inhabited

def Adapter.core : Adapter → Registry.Core
  | .nodes r => r.core
  | .services r _ => r.core

def Adapter.mapCore (f : Registry.Core → Registry.Core) : Adapter → Adapter
  | .nodes r => .nodes { r with core := f r.core }
  | .services r n => .services { r with core := f r.core } n

/-- A registry, the rules between it and its client, and the tickets of those who wait at its gate,
oldest first. -/
structure Member where
  adapter : Adapter
  rules : List Rule
  gate : List Nat
  nextTicket : Nat
deriving Repr, Inhabited

inductive Call where
  | nodes (c : Nodes.Call)
  | services (c : Services.Call)
deriving Repr

/-- A call that waits, and its ticket if it waits at the gate. -/
structure Waiting where
  member : Nat
  call : Call
  gate : Option Nat
deriving Repr

/-- What a task still has to do. -/
inductive Work where
  | fresh (step : Command)
  | call (w : Waiting)
deriving Repr

/-- A bound on the number of steps that a call still takes. -/
def Call.stepsLeft : Call → Nat
  | .nodes c => c.stepsLeft
  | .services c => c.stepsLeft

/-- The ticket of a call that waits for its turn at a lock. -/
def Call.turn? : Call → Option Nat
  | .nodes c => c.need.turn?
  | .services c => c.need.turn?

/-- A bound on the number of commands and steps that a piece of work leads to. -/
def Work.weight : Work → Nat
  | .fresh step => 1 + step.weight
  | .call p => 1 + p.call.stepsLeft

/-- A task that runs beside the scenario. -/
structure Task where
  name : String
  work : Work
deriving Repr

/-- Where a roster is: on its own, or in a registry. -/
inductive RosterRef where
  | alone (id : Nat)
  | member (id : Nat)
deriving DecidableEq, Repr, Inhabited

/-- All that a scenario has made. -/
structure World where
  server : Tree.Server
  sessions : Table Tree.SessionId
  rosters : List Roster
  rosterNames : Table Nat
  audience : Naming.Audience
  clients : List Client
  clientNames : Table Nat
  members : List Member
  memberNames : Table Nat
  listenerScripts : Table Script
  namingScripts : Table Script
  consumerScripts : Table Script
  /-- The tasks that can go on, in the order in which they will. -/
  ready : List Task
  /-- The tasks that wait for a lock or at a gate. -/
  waiting : List Task
  /-- The sessions that are in use, once for each operation in progress. -/
  used : List Tree.SessionId
  /-- The sessions that nobody holds any longer, and which end when they are no longer in use. -/
  orphans : List Tree.SessionId
  events : List Event
  log : List LogLine
deriving Repr

/-- What happens in a world when an actor is called. -/
abbrev Reaction := Actor → World → World

namespace World

def empty : World where
  server := ∅
  sessions := ∅
  rosters := []
  rosterNames := ∅
  audience := ∅
  clients := []
  clientNames := ∅
  members := []
  memberNames := ∅
  listenerScripts := ∅
  namingScripts := ∅
  consumerScripts := ∅
  ready := []
  waiting := []
  used := []
  orphans := []
  events := []
  log := []

instance : EmptyCollection World := ⟨empty⟩

/-! ## What is observed -/

def emit (w : World) (e : Event) : World :=
  { w with events := w.events ++ [e] }

def write (w : World) (lines : List LogLine) : World :=
  { w with log := w.log ++ lines }

/-! ## Scripts -/

def script? (w : World) : Actor → Option Script
  | .listener n => w.listenerScripts.get? n
  | .namingListener n => w.namingScripts.get? n
  | .consumer n => w.consumerScripts.get? n

def setScript (w : World) (a : Actor) (s : Script) : World :=
  match a with
  | .listener n => { w with listenerScripts := w.listenerScripts.insert n s }
  | .namingListener n => { w with namingScripts := w.namingScripts.insert n s }
  | .consumer n => { w with consumerScripts := w.consumerScripts.insert n s }

/-- The commands that an actor carries out now. -/
def takeScript (w : World) (a : Actor) : World × List Command :=
  match w.script? a with
  | some s =>
    match s.left with
    | 0 => (w, [])
    | n + 1 => (w.setScript a { s with left := n }, s.steps)
  | none => (w, [])

/-- A bound on the number of commands and steps that the scripts and tasks of a world still lead
to. -/
def weight (w : World) : Nat :=
  let scripts := w.listenerScripts.values ++ w.namingScripts.values ++ w.consumerScripts.values
  scripts.foldr (fun s n => s.left * weights s.steps + n) 0 +
    (w.ready ++ w.waiting).foldr (fun t n => t.work.weight + n) 0

/-! ## Members -/

def modifyMember (w : World) (id : Nat) (f : Member → Member) : World :=
  { w with members := w.members.modify id f }

def addMember (w : World) (name : String) (a : Adapter) : World :=
  { w with
    members := w.members ++ [⟨a, [], [], 0⟩]
    memberNames := w.memberNames.insert name w.members.length }

def adapter? (w : World) (id : Nat) : Option Adapter :=
  w.members[id]?.map (·.adapter)

def modifyCore (w : World) (id : Nat) (f : Registry.Core → Registry.Core) : World :=
  w.modifyMember id fun m => { m with adapter := m.adapter.mapCore f }

def core? (w : World) (id : Nat) : Option Registry.Core :=
  (w.adapter? id).map (·.core)

/-! ## Rosters -/

def rosterAt (w : World) : RosterRef → Roster
  | .alone id => w.rosters.getD id (.ofKind "")
  | .member id => ((w.core? id).map (·.roster)).getD (.ofKind "")

def modifyRoster (w : World) (u : RosterRef) (f : Roster → Roster) : World :=
  match u with
  | .alone id => { w with rosters := w.rosters.modify id f }
  | .member id => w.modifyCore id fun k => { k with roster := f k.roster }

def addRoster (w : World) (name : String) (r : Roster) : World :=
  { w with
    rosters := w.rosters ++ [r]
    rosterNames := w.rosterNames.insert name w.rosters.length }

/-- The place of the roster with a name: one that is on its own, or that of a registry, or else a
new one. -/
def rosterRef (w : World) (u : String) : World × RosterRef :=
  match w.rosterNames.get? u, w.memberNames.get? u with
  | some id, _ => (w, .alone id)
  | none, some id => (w, .member id)
  | none, none => (w.addRoster u (.ofKind ""), .alone w.rosters.length)

def host (react : Reaction) (u : RosterRef) : Host World where
  roster w := w.rosterAt u
  update f w := w.modifyRoster u f
  call c data w :=
    let w := react (.consumer c) (w.emit (.consumer c data))
    (w, match (w.script? (.consumer c)).bind (·.panic) with
      | some p => .panicked p
      | none => .completed)
  log line w := w.write [line]

/-! ## Deliveries -/

/-- What is written down about an event whose data is no payload. -/
def undecodable : LogLine where
  level := "WARN"
  message := "Ignoring undecodable data change"
  fields := []

/-- A registry's listener hears of a node: the consumers of its key are told new data. -/
def forwardNode (w : World) (react : Reaction) (u : RosterRef) (key : String) :
    Tree.Event → World
  | .changed _ bytes =>
    match Payload.decode bytes with
    | .ok data => ((host react u).tell key data w).1
    | .error _ => w.write [undecodable]
  | .deleted _ => w

/-- A registry's listener hears of a service: for each instance the consumers of its service are
told the metadata. -/
def forwardService (w : World) (react : Reaction) (u : RosterRef) (e : Naming.Event) : World :=
  e.instances.foldl (fun w i => ((host react u).tell i.service i.metadata w).1) w

def deliverNode (react : Reaction) (w : World) (d : Tree.Delivery) : World :=
  match d.listener with
  | .named l => react (.listener l) (w.emit (.node l d.event))
  | .forwarder id key _ => w.forwardNode react (.member id) key d.event

def deliverService (react : Reaction) (w : World) (d : Naming.Delivery) : World :=
  match d.listener with
  | .named l => react (.namingListener l) (w.emit (.service l d.event))
  | .forwarder id _ _ => w.forwardService react (.member id) d.event

def deliverNodes (w : World) (react : Reaction) (ds : List Tree.Delivery) : World :=
  ds.foldl (deliverNode react) w

def deliverServices (w : World) (react : Reaction) (ds : List Naming.Delivery) : World :=
  ds.foldl (deliverService react) w

/-! ## The tree -/

def connect (w : World) : World × Tree.SessionId :=
  let (server, id) := w.server.connect
  ({ w with server }, id)

def close (w : World) (react : Reaction) (id : Tree.SessionId) : World :=
  let (server, ds) := w.server.close id
  { w with server }.deliverNodes react ds

def takeUp (w : World) (id : Tree.SessionId) : World :=
  { w with used := id :: w.used }

/-- Ends a use of a session.  A session that nobody holds ends with its last use. -/
def layDown (w : World) (react : Reaction) (id : Tree.SessionId) : World :=
  let w := { w with used := w.used.erase id }
  if w.orphans.contains id && !w.used.contains id then
    { w with orphans := w.orphans.filter (· != id) }.close react id
  else w

/-- Lets go of a session that was held by a name or a registry.  It ends now, or when it is no
longer in use. -/
def letGo (w : World) (react : Reaction) (id : Tree.SessionId) : World :=
  if w.used.contains id then { w with orphans := id :: w.orphans } else w.close react id

/-- The session with a name, opened if there is none. -/
def session (w : World) (s : String) : World × Tree.SessionId :=
  match w.sessions.get? s with
  | some id => (w, id)
  | none =>
    let (w, id) := w.connect
    ({ w with sessions := w.sessions.insert s id }, id)

def askNode (w : World) (react : Reaction) (id : Tree.SessionId) (q : Tree.Request) :
    World × Tree.Reply :=
  let (server, reply, ds) := w.server.answer id q
  ({ w with server }.deliverNodes react ds, reply)

/-- Writes to a node without a session and calls the listeners. -/
def writeNode (w : World) (react : Reaction) (p : String) (data : Bytes) : World × Tree.Reply :=
  let (server, reply, ds) := w.server.write p data
  ({ w with server }.deliverNodes react ds, reply)

/-! ## Naming clients -/

/-- Every message to a server is lost. -/
def network (_ : Naming.Remote.Exchange) : Naming.Remote.Answer := .dropped

def addClient (w : World) (name : String) (c : Client) : World :=
  { w with
    clients := w.clients ++ [c]
    clientNames := w.clientNames.insert name w.clients.length }

/-- The number of the client with a name, which is a directory if it is new. -/
def client (w : World) (n : String) : World × Nat :=
  match w.clientNames.get? n with
  | some id => (w, id)
  | none => (w.addClient n (.directory ∅), w.clients.length)

def client? (w : World) (n : String) : Option Client := do
  let id ← w.clientNames.get? n
  w.clients[id]?

def setClient (w : World) (id : Nat) (c : Client) : World :=
  { w with clients := w.clients.set id c }

/-- The tasks of a client that have not run before run their first round, as far as the network
lets them. -/
def runPoller (w : World) (react : Reaction) (id : Nat) (task : Nat) (service : String) : World :=
  match w.clients[id]? with
  | some (.remote c) =>
    let (c, result, log) := c.query 0 network (Naming.Remote.listQuery service)
    match result with
    | none => (w.setClient id (.remote c)).write log
    | some r =>
      let (last, event, more) := Naming.Remote.Client.pollRound service [] r
      let c := c.remember task service last
      let w := (w.setClient id (.remote c)).write (log ++ more)
      match event with
      | some e => w.deliverServices react (c.audience.publish e)
      | none => w
  | _ => w

/-- Puts a request to a naming client and calls the listeners.  There is no reply if the clock of
the client gives out. -/
def askService (w : World) (react : Reaction) (id : Nat) (q : Naming.Request) :
    World × Option (Except Failure Unit) :=
  match w.clients[id]? with
  | some (.directory d) =>
    let (d, ds) := d.answer q
    ((w.setClient id (.directory d)).deliverServices react ds, some (.ok ()))
  | some (.remote c) =>
    let got := c.answer 0 network q
    let w := (w.setClient id (.remote got.client)).write got.log
    let w := match q with
      | .subscribe service _ =>
        if c.isPolling service then w else w.runPoller react id c.nextTask service
      | _ => w
    (w, got.reply)
  | none => (w, some (.ok ()))

end World

end Discovery.Scenario
