import Discovery.Scenario.Progress

/-!
# Running scenarios

A command is carried out, and then the tasks go on until none can, in the order in which they were
woken.  What was observed meanwhile is the answer, the events and the lines that were written down.
Tasks are started by the scenario itself; a script or a task that would start one is refused.

A command inside a script may lead to calls of actors with scripts of their own.  A script is
carried out a limited number of times, so the depth of this is bounded.
-/

namespace Discovery.Scenario

open Registry (Nodes Services Action)

/-- What a command comes to: an answer, or a call that waits. -/
inductive Result where
  | answer (a : Answer)
  | waits (p : Waiting)
deriving Repr

def Answer.ofReply : Tree.Reply → Answer
  | .done => .done
  | .present b => .flag b
  | .found none => .nothing
  | .found (some b) => .bytes b
  | .failed e => .nodeFailed e

def Answer.ofServiceReply : Option (Except Failure Unit) → Answer
  | some (.ok _) => .done
  | some (.error e) => .failed e
  | none => .panicked

namespace World

/-! ## Commands -/

/-- The number of the registry with a name, which is one over the tree if it is new. -/
def memberId (w : World) (r : String) : World × Nat :=
  match w.memberNames.get? r with
  | some id => (w, id)
  | none =>
    let (w, session) := w.connect
    (w.addMember r (.nodes (.new w.members.length session)), w.members.length)

/-- Ends what a registry holds at its client when the registry goes. -/
def releaseMember (w : World) (react : Reaction) (id : Nat) : World :=
  match w.adapter? id with
  | some (.nodes r) => w.letGo react r.session
  | _ => w

/-- Adds a registry under a name; one that had the name goes afterwards. -/
def replaceMember (w : World) (react : Reaction) (name : String) (a : Adapter) : World :=
  let old := w.memberNames.get? name
  let w := w.addMember name a
  match old with
  | some id => w.releaseMember react id
  | none => w

/-- Opens a session under a name; one that had the name goes afterwards. -/
def replaceSession (w : World) (react : Reaction) (s : String) : World × Answer :=
  let old := w.sessions.get? s
  let (w, id) := w.connect
  let w := { w with sessions := w.sessions.insert s id }
  match old with
  | some before => (w.letGo react before, .count id)
  | none => (w, .count id)

/-- Forgets the name of a naming client.  A remote client that no registry uses stops its tasks. -/
def dropClient (w : World) (n : String) : World :=
  match w.clientNames.get? n with
  | none => w
  | some id =>
    let used := w.members.any fun m => match m.adapter with
      | .services _ client => client == id
      | .nodes _ => false
    let w : World := { w with clientNames := w.clientNames.erase n }
    match w.clients[id]? with
    | some (.remote c) => if used then w else w.setClient id (.remote c.close)
    | _ => w

def remote? (w : World) (n : String) : Option Naming.Remote.Client :=
  match w.client? n with
  | some (.remote c) => some c
  | _ => none

def directory? (w : World) (n : String) : Option Naming.Directory :=
  match w.client? n with
  | some (.directory d) => some d
  | _ => none

def runTree (w : World) (react : Reaction) : TreeCommand → World × Answer
  | .connect s => w.replaceSession react s
  | .ask s q =>
    let (w, id) := w.session s
    let (w, reply) := (w.takeUp id).askNode react id q
    (w.layDown react id, .ofReply reply)
  | .close s =>
    let (w, id) := w.session s
    (w.close react id, .done)
  | .isClosed s =>
    let (w, id) := w.session s
    (w, .flag (w.server.isClosed id))
  | .drop s =>
    match w.sessions.get? s with
    | some id => ({ w with sessions := w.sessions.erase s }.letGo react id, .done)
    | none => (w, .done)
  | .write p data =>
    let (w, reply) := w.writeNode react p data
    (w, .ofReply reply)
  | .data p => (w, match w.server.tree.data? p with
    | some b => .bytes b
    | none => .nothing)
  | .isEphemeral p => (w, match w.server.tree.isEphemeral? p with
    | some b => .flag b
    | none => .nothing)
  | .children p => (w, .texts (w.server.tree.children p))
  | .paths => (w, .texts w.server.tree.paths)
  | .watchCount p => (w, .count (w.server.tree.watchesAt p).length)
  | .clearHistory => ({ w with server := w.server.clearHistory }, .done)
  | .history => (w, .changes w.server.tree.history)

def runRoster (w : World) (react : Reaction) (u : RosterRef) : RosterCommand → World × Answer
  | .attach key c =>
    let n := ((w.rosterAt u).enroll key c).2
    (w.modifyRoster u fun r => (r.enroll key c).1, .count n)
  | .detach key c =>
    let n := ((w.rosterAt u).dismiss key c).2
    (w.modifyRoster u fun r => (r.dismiss key c).1, .count n)
  | .tell key data =>
    let (w, n) := (host react u).tell key data w
    (w, .count n)
  | .tellOne key c data =>
    let (w, ok) := (host react u).tellOne key c data w
    (w, .flag ok)
  | .count key => (w, .count ((w.rosterAt u).count key))
  | .keys => (w, .texts (w.rosterAt u).keys)
  | .fail operation key reason =>
    let line := (w.rosterAt u).failureLine operation key reason
    ((w.modifyRoster u (·.fail operation)).write [line], .done)
  | .keyOf e => (w, match e.key (w.rosterAt u).kind with
    | .ok key => .text key
    | .error f => .failed f.toFailure)
  | .failures operation =>
    let r := w.rosterAt u
    let (meter, n) := r.meter.readFailures r.kind operation
    (w.modifyRoster u fun r => { r with meter }, .count n.toNat)
  | .meterText => (w, .text (w.rosterAt u).meter.text)
  | .forwardNode key e => (w.forwardNode react u key e, .done)
  | .forwardService e => (w.forwardService react u e, .done)

def runNaming (w : World) (react : Reaction) : NamingCommand → World × Answer
  | .addListener service l =>
    let audience := w.audience.add service (.named l)
    ({ w with audience }, .count (audience.of service).length)
  | .removeListener service l =>
    let audience := w.audience.remove service (.named l)
    ({ w with audience }, .count (audience.of service).length)
  | .listenerCount service => (w, .count (w.audience.of service).length)
  | .publish e => (w.deliverServices react (w.audience.publish e), .done)
  | .directory n => (w.addClient n (.directory ∅), .done)
  | .remote n settings => match Naming.Remote.Client.ofSettings? settings with
    | some c => (w.addClient n (.remote c), .done)
    | none => (w, .noServer)
  | .request n q =>
    let (w, id) := w.client n
    let (w, reply) := w.askService react id q
    (w, .ofServiceReply reply)
  | .instances n service =>
    (w, .instances (((w.directory? n).map (·.instances service)).getD []))
  | .namingListenerCount n service =>
    (w, .count (((w.directory? n).map (·.audience.of service)).getD []).length)
  | .hasBeat n service ip port =>
    (w, .flag ((w.remote? n).any (·.hasBeat service ip port)))
  | .isPolling n service => (w, .flag ((w.remote? n).any (·.isPolling service)))
  | .drop n => (w.dropClient n, .done)
  | .servers => (w, .done)

/-- Carries out a command as far as it gets. -/
def run (w : World) (react : Reaction) : Command → World × Result
  | .tree c => (w.runTree react c).map id .answer
  | .newRoster u kind => (w.addRoster u (.ofKind kind), .answer (.text kind))
  | .roster u c =>
    let (w, u) := w.rosterRef u
    (w.runRoster react u c).map id .answer
  | .naming c => (w.runNaming react c).map id .answer
  | .scriptListener n times steps =>
    (w.setScript (.listener n) ⟨times, steps, none⟩, .answer .done)
  | .scriptNamingListener n times steps =>
    (w.setScript (.namingListener n) ⟨times, steps, none⟩, .answer .done)
  | .scriptConsumer n times panic steps =>
    (w.setScript (.consumer n) ⟨times, steps, panic⟩, .answer .done)
  | .nodesRegistry r =>
    let (w, session) := w.connect
    (w.replaceMember react r (.nodes (.new w.members.length session)),
      .answer (.text Nodes.kind))
  | .servicesRegistry r n =>
    let (w, client) := w.client n
    (w.replaceMember react r (.services (.new w.members.length) client),
      .answer (.text Services.kind))
  | .act r a =>
    let (w, id) := w.memberId r
    match w.begin react id a with
    | (w, none) => (w, .answer .done)
    | (w, some p) => (w, .waits p)
  | .hasListener r key =>
    let (w, id) := w.memberId r
    (w, .answer (.flag (((w.core? id).map (·.hasListener key)).getD false)))
  | .dropRegistry r =>
    match w.memberNames.get? r with
    | some id =>
      ({ w with memberNames := w.memberNames.erase r }.releaseMember react id, .answer .done)
    | none => (w, .answer .done)
  | .inject r rule =>
    let (w, id) := w.memberId r
    (w.modifyMember id fun m => { m with rules := m.rules ++ [rule] }, .answer .done)
  | .release r =>
    let (w, id) := w.memberId r
    (w.openGate id, .answer .done)
  | .spawn _ _ => (w, .answer .refused)

/-- Carries out a command; one that has to wait is given up. -/
def attempt (w : World) (react : Reaction) (c : Command) : World × Answer :=
  match w.run react c with
  | (w, .answer a) => (w, a)
  | (w, .waits p) => (w.cancel react p, .pending)

/-- Carries out a command of the scenario itself, which may also start a task. -/
def submit (w : World) (react : Reaction) : Command → World × Answer
  | .spawn t step => ({ w with ready := w.ready ++ [⟨t, .fresh step⟩] }, .done)
  | c => w.attempt react c

def perform (react : Reaction) (name : String) : List Command → World → World
  | [], w => w
  | c :: cs, w =>
    let (w, a) := w.attempt react c
    perform react name cs (w.emit (.scripted name a))

/-- What happens when an actor is called: its script, if it has one that is not used up, to a given
depth. -/
def reaction : Nat → Reaction
  | 0 => fun _ w => w
  | depth + 1 => fun a w =>
    let (w, steps) := w.takeScript a
    perform (reaction depth) a.name steps w

/-! ## Tasks -/

/-- Takes a task as far as it gets. -/
def runTask (react : Reaction) (w : World) (t : Task) : World :=
  let (w, r) := match t.work with
    | .fresh step => w.run react step
    | .call p => match w.poll react p with
      | (w, none) => (w, .answer .done)
      | (w, some p) => (w, .waits p)
  match r with
  | .answer a => w.emit (.finished t.name a)
  | .waits p => { w with waiting := w.waiting ++ [⟨t.name, .call p⟩] }

/-- Lets the tasks go on, one after the other, until none is ready. -/
def settle (react : Reaction) : Nat → World → World
  | 0, w => w
  | fuel + 1, w =>
    match w.ready with
    | [] => w
    | t :: ts => settle react fuel (runTask react { w with ready := ts } t)

/-! ## Turns of a scenario -/

/-- A turn of a scenario: a command, and whether it is waited afterwards until a server of a remote
client holds a message back. -/
structure Turn where
  command : Command
  awaits : Bool
deriving Repr, Inhabited

/-- What is observed of a turn. -/
structure Observed where
  answer : Answer
  events : List Event
  log : List LogLine
  /-- Whether it was waited in vain. -/
  expired : Bool
deriving Repr, Inhabited

/-- One turn: a command, and then the tasks.  A command that has to wait is given up.  No message
reaches a server, so whoever waits for one waits in vain. -/
def step (w : World) (t : Turn) : World × Observed :=
  let bound := w.weight + t.command.weight + 1
  let (w, a) := { w with events := [], log := [] }.submit (reaction bound) t.command
  let w := settle (reaction bound) bound w
  (w, ⟨a, w.events, w.log, t.awaits⟩)

/-- The turns of a scenario from a given world on. -/
def observeFrom (w : World) : List Turn → List Observed
  | [] => []
  | t :: ts =>
    let (w, o) := w.step t
    o :: w.observeFrom ts

def observe (ts : List Turn) : List Observed :=
  observeFrom ∅ ts

end World

end Discovery.Scenario
