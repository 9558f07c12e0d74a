import Discovery.Naming.Remote.Query

/-!
# The remote naming client

The client registers instances at servers.  For an ephemeral instance it keeps a task that says
again and again that the instance is alive, and registers it again when the server does not know
it.  For a service with listeners it keeps a task that lists the instances again and again and
tells the listeners when they have changed.

A task is stopped by taking it out of the list of tasks.  The client finds the task for an address
or a service in a table.
-/

namespace Discovery.Naming.Remote

/-- What a task does. -/
inductive Job where
  /-- Says that an instance is alive. -/
  | beat (service : String) (i : Instance)
  /-- Lists the instances of a service; `last` is what was found last. -/
  | poll (service : String) (last : List Instance)
deriving DecidableEq, Repr, Inhabited

/-- A task that has not been stopped. -/
structure Task where
  id : Nat
  job : Job
deriving DecidableEq, Repr, Inhabited

structure Client where
  settings : Settings
  link : Link
  audience : Audience
  /-- The task for each address that is kept alive. -/
  beats : Table Nat
  /-- The task for each service that is listed. -/
  pollers : Table Nat
  tasks : List Task
  nextTask : Nat
deriving DecidableEq, Repr, Inhabited

namespace Client

/-- A client with these settings; there must be a server. -/
def ofSettings? (s : Settings) : Option Client :=
  if s.servers.isEmpty then none
  else some
    { settings := s, link := .new, audience := ∅, beats := ∅, pollers := ∅, tasks := [],
      nextTask := 0 }

/-- What is said about settings without a server. -/
def noServerText : String := "No nacos server address configured"

/-! ## Tasks -/

/-- The name of an address in the table of tasks. -/
def beatKey (service ip : String) (port : UInt16) : String :=
  service ++ "#" ++ ip ++ "#" ++ portText port

def hasBeat (c : Client) (service ip : String) (port : UInt16) : Bool :=
  c.beats.contains (beatKey service ip port)

/-- Whether a service is listed again and again. -/
def isPolling (c : Client) (service : String) : Bool :=
  c.pollers.contains service

def spawn (c : Client) (j : Job) : Client × Nat :=
  ({ c with tasks := c.tasks ++ [⟨c.nextTask, j⟩], nextTask := c.nextTask + 1 }, c.nextTask)

def abort (c : Client) (id : Nat) : Client :=
  { c with tasks := c.tasks.filter (·.id != id) }

def abort? (c : Client) : Option Nat → Client
  | some id => c.abort id
  | none => c

/-- Keeps an instance alive from now on, in the stead of what was kept alive at its address. -/
def startBeat (c : Client) (service : String) (i : Instance) : Client :=
  let key := beatKey service i.ip i.port
  let previous := c.beats.get? key
  let (c, id) := c.spawn (.beat service i)
  { c with beats := c.beats.insert key id }.abort? previous

/-- Keeps the instance at an address alive no longer. -/
def stopBeat (c : Client) (service ip : String) (port : UInt16) : Client :=
  let key := beatKey service ip port
  let previous := c.beats.get? key
  { c with beats := c.beats.erase key }.abort? previous

/-- Adds a listener and lists its service from now on. -/
def subscribe (c : Client) (service : String) (l : Listener) : Client :=
  let c := { c with audience := c.audience.add service l }
  if c.isPolling service then c
  else
    let (c, id) := c.spawn (.poll service [])
    { c with pollers := c.pollers.insert service id }

/-- Removes a listener; a service without listeners is listed no longer. -/
def unsubscribe (c : Client) (service : String) (l : Listener) : Client :=
  let c := { c with audience := c.audience.remove service l }
  if (c.audience.of service).isEmpty then
    let previous := c.pollers.get? service
    { c with pollers := c.pollers.erase service }.abort? previous
  else c

def close (c : Client) : Client :=
  { c with beats := ∅, pollers := ∅, tasks := [] }

/-! ## Requests -/

/-- What a request to the client comes to: the client, the reply unless the clock gave out, and what
was written down. -/
structure Done where
  client : Client
  reply : Option (Except Failure Unit)
  log : List LogLine

/-- A trouble, as the caller of the client sees it. -/
def failureOf (t : Trouble) : Failure :=
  .backend t.text

/-- The client when a registration has come to an end: an ephemeral instance is kept alive. -/
def registered (c : Client) (service : String) (i : Instance) (ok : Bool) : Client :=
  if ok && i.ephemeral then c.startBeat service { i with service } else c

def query (c : Client) (now : Nat) (network : Exchange → Answer) (q : Query) :
    Client × Option (Except Trouble String) × List LogLine :=
  let got := c.link.run c.settings now network q
  ({ c with link := got.link }, got.result, got.log)

/-- Answers a request whose messages are not interleaved with those of others. -/
def answer (c : Client) (now : Nat) (network : Exchange → Answer) : Request → Done
  | .register service i =>
    match c.query now network (registerQuery service i) with
    | (c, some (.ok _), log) => ⟨c.registered service i true, some (.ok ()), log⟩
    | (c, some (.error t), log) => ⟨c.registered service i false, some (.error (failureOf t)), log⟩
    | (c, none, log) => ⟨c, none, log⟩
  | .deregister service ip port ephemeral =>
    match (c.stopBeat service ip port).query now network
        (deregisterQuery service ip port ephemeral) with
    | (c, some (.ok _), log) => ⟨c, some (.ok ()), log⟩
    | (c, some (.error t), log) => ⟨c, some (.error (failureOf t)), log⟩
    | (c, none, log) => ⟨c, none, log⟩
  | .subscribe service l => ⟨c.subscribe service l, some (.ok ()), []⟩
  | .unsubscribe service l => ⟨c.unsubscribe service l, some (.ok ()), []⟩

/-! ## Rounds of tasks -/

/-- Whether two lists hold equal instances in the same order. -/
def sameInstances : List Instance → List Instance → Bool
  | [], [] => true
  | a :: as, b :: bs => a.same b && sameInstances as bs
  | _, _ => false

/-- What a round of listing comes to: what was found last now, the event to publish, and what is
written down. -/
def pollRound (service : String) (last : List Instance) (r : Except Trouble String) :
    List Instance × Option Event × List LogLine :=
  match r with
  | .error t =>
    (last, none, [warning ("Polling instances of " ++ service ++ " failed: " ++ t.text)])
  | .ok body =>
    match readListing service body with
    | .error _ =>
      (last, none, [warning ("Polling instances of " ++ service ++ " failed: <decode>")])
    | .ok (found, log) =>
      if sameInstances found last then (last, none, log) else (found, some ⟨service, found⟩, log)

/-- Whether the answer to a sign of life asks for another registration, and what is written
down. -/
def beatRound (service : String) (i : Instance) (r : Except Trouble String) :
    Bool × List LogLine :=
  match r with
  | .error t => (false, [warning ("Heartbeat for " ++ service ++ " failed: " ++ t.text)])
  | .ok body =>
    if beatCode body = unknownInstance then
      (true, [warning ("Instance " ++ i.ip ++ ":" ++ portText i.port ++ " of " ++ service ++
        " unknown to server, registering again")])
    else (false, [])

/-- What is written down when an instance has been registered again. -/
def againLines (service : String) (r : Except Trouble String) : List LogLine :=
  match r with
  | .error t => [warning ("Re-registration of " ++ service ++ " failed: " ++ t.text)]
  | .ok _ => []

def remember (c : Client) (id : Nat) (service : String) (last : List Instance) : Client :=
  { c with tasks := c.tasks.map fun t => if t.id = id then ⟨id, .poll service last⟩ else t }

end Client

end Discovery.Naming.Remote
