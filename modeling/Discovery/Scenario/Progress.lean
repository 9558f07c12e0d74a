import Discovery.Scenario.World

/-!
# Calls of registries

A call of a registry is taken as far as it gets.  It stops where it has to wait: for a lock that
another call holds, or at the gate of the registry, where a rule may hold it up.
-/

namespace Discovery.Scenario

open Registry (Nodes Services Need Signal Step Action)

/-! ## Rules -/

/-- The operation of a request, as rules name it. -/
def nodeOperation : Tree.Request → String
  | .check _ => "exists"
  | .create _ _ _ => "create"
  | .delete _ => "delete"
  | .read _ => "read"
  | .write _ _ => "write"
  | .watch _ _ => "watch"
  | .unwatch _ _ => "unwatch"

def serviceOperation : Naming.Request → String
  | .register _ _ => "register"
  | .deregister _ _ _ _ => "deregister"
  | .subscribe _ _ => "subscribe"
  | .unsubscribe _ _ => "unsubscribe"

def Rule.matches (r : Rule) (operation target : String) : Bool :=
  r.operation == operation && r.target.all (· == target)

/-- The first rule about a request, and the rules that are left.  A rule that still lets requests
pass counts this one and stays. -/
def applyRules (operation target : String) : List Rule → List Rule × Option Rule
  | [] => ([], none)
  | r :: rs =>
    if r.matches operation target then
      match r.skip with
      | 0 => (rs, some r)
      | n + 1 => ({ r with skip := n } :: rs, none)
    else
      let (rs, found) := applyRules operation target rs
      (r :: rs, found)

def withText (e : Tree.Failure) (text : String) : Tree.Failure :=
  match e with
  | .noNode _ => .noNode text
  | .nodeExists _ => .nodeExists text
  | .notEmpty _ => .notEmpty text
  | .noChildrenForEphemerals _ => .noChildrenForEphemerals text
  | .badArguments _ => .badArguments text
  | .sessionClosed => .sessionClosed
  | .connection _ => .connection text

def withFailureText (e : Failure) (text : String) : Failure :=
  match e with
  | .illegalArgument _ => .illegalArgument text
  | .config _ => .config text
  | .backend _ => .backend text
  | .metrics _ => .metrics text

def Effect.nodeFailure (e : Effect) (target : String) : Tree.Failure :=
  match e with
  | .failNode why named => if named then why else withText why target
  | .failService why _ => .connection why.message
  | .hold => .sessionClosed

def Effect.serviceFailure (e : Effect) (target : String) : Failure :=
  match e with
  | .failService why named => if named then why else withFailureText why target
  | .failNode why named => (if named then why else withText why target).toFailure
  | .hold => .backend target

/-! ## Going on -/

/-- Whether a call may go on, and how. -/
inductive Passage (ρ : Type) where
  | waits
  | goes (signal : Signal ρ)

/-- What a call came to when it was taken a step further. -/
structure Advance where
  world : World
  call : Option Call
  gate : Option Nat

namespace World

def queueAtGate (w : World) (id : Nat) : World × Nat :=
  match w.members[id]? with
  | some m =>
    (w.modifyMember id fun m =>
      { m with gate := m.gate ++ [m.nextTicket], nextTicket := m.nextTicket + 1 }, m.nextTicket)
  | none => (w, 0)

def atGate (w : World) (id ticket : Nat) : Bool :=
  match w.members[id]? with
  | some m => m.gate.contains ticket
  | none => false

/-- Whether a waiting call could go on: it has left the gate, or its turn at the lock has come. -/
def canGoOn (w : World) (p : Waiting) : Bool :=
  match p.gate, p.call.turn? with
  | some ticket, _ => !w.atGate p.member ticket
  | none, some ticket => ((w.core? p.member).map (·.locks.owns ticket)).getD true
  | none, none => true

def taskCanGoOn (w : World) (t : Task) : Bool :=
  match t.work with
  | .fresh _ => true
  | .call p => w.canGoOn p

/-- The tasks that wait no longer go on after those that are ready already. -/
def wake (w : World) : World :=
  { w with
    ready := w.ready ++ w.waiting.filter w.taskCanGoOn
    waiting := w.waiting.filter fun t => !w.taskCanGoOn t }

/-- Opens the gate of a registry for the call that has waited longest. -/
def openGate (w : World) (id : Nat) : World :=
  (w.modifyMember id fun m => { m with gate := m.gate.drop 1 }).wake

def pollLock (w : World) (id ticket : Nat) : World × Bool :=
  let w := w.modifyCore id fun k => { k with locks := k.locks.poll ticket }
  (w, ((w.core? id).map (·.locks.holds ticket)).getD false)

def takeRule (w : World) (id : Nat) (operation target : String) : World × Option Rule :=
  match w.members[id]? with
  | some m =>
    let (rules, found) := applyRules operation target m.rules
    (w.modifyMember id fun m => { m with rules }, found)
  | none => (w, none)

/-- Puts the request of a call to the tree, unless a rule stands in the way. -/
def askNodeUnderRules (w : World) (react : Reaction) (id : Nat) (session : Tree.SessionId)
    (q : Tree.Request) : World × Option Tree.Reply :=
  match w.takeRule id (nodeOperation q) q.path with
  | (w, none) =>
    let (w, reply) := w.askNode react session q
    (w, some reply)
  | (w, some rule) =>
    match rule.effect with
    | .hold => (w, none)
    | e =>
      let w := if rule.after then (w.askNode react session q).1 else w
      (w, some (.failed (e.nodeFailure q.path)))

def askServiceUnderRules (w : World) (react : Reaction) (id client : Nat) (q : Naming.Request) :
    World × Option (Except Failure Unit) :=
  match w.takeRule id (serviceOperation q) q.service with
  | (w, none) =>
    let (w, reply) := w.askService react client q
    (w, some (reply.getD (.ok ())))
  | (w, some rule) =>
    match rule.effect with
    | .hold => (w, none)
    | e =>
      let w := if rule.after then (w.askService react client q).1 else w
      (w, some (.error (e.serviceFailure q.service)))

/-- Gets what a call needs, or finds that it has to wait.  A call that has passed the gate meets no
rules. -/
def provide {κ ρ : Type} (w : World) (react : Reaction) (id : Nat) (gate : Option Nat)
    (need : Need κ) (askFree : World → κ → World × ρ)
    (askRuled : World → κ → World × Option ρ) : World × Option Nat × Passage ρ :=
  match need with
  | .turn ticket =>
    let (w, held) := w.pollLock id ticket
    (w, none, if held then .goes .admitted else .waits)
  | .hand key c data => (((host react (.member id)).tellOne key c data w).1, none, .goes .handed)
  | .ask q =>
    match gate with
    | some ticket =>
      if w.atGate id ticket then (w, gate, .waits)
      else
        let (w, reply) := askFree w q
        (w, none, .goes (.answered reply))
    | none =>
      match askRuled w q with
      | (w, some reply) => (w, none, .goes (.answered reply))
      | (w, none) =>
        let (w, ticket) := w.queueAtGate id
        (w, some ticket, .waits)

/-- Replaces the registry of a member.  Whoever waited for a lock that is free now goes on. -/
def setAdapter (w : World) (id : Nat) (a : Adapter) : World :=
  (w.modifyMember id fun m => { m with adapter := a }).wake

/-- Takes what a registry is made of into use. -/
def takeUpMember (w : World) (id : Nat) : World :=
  match w.adapter? id with
  | some (.nodes r) => w.takeUp r.session
  | _ => w

def layDownMember (w : World) (react : Reaction) (id : Nat) : World :=
  match w.adapter? id with
  | some (.nodes r) => w.layDown react r.session
  | _ => w

/-- Takes up a step of a registry over the tree. -/
def takeNodes (w : World) (id : Nat) (s : Step Nodes Nodes.Call) : World × Option Call :=
  ((w.setAdapter id (.nodes s.registry)).write s.log, s.call.map .nodes)

/-- Takes up a step of a registry over a naming client. -/
def takeServices (w : World) (id client : Nat) (s : Step Services Services.Call) :
    World × Option Call :=
  ((w.setAdapter id (.services s.registry client)).write s.log, s.call.map .services)

/-- What a call needs is got; the call goes on with it as it finds its registry then. -/
def stepCall (w : World) (react : Reaction) (id : Nat) (gate : Option Nat) (c : Call) :
    World × Option Nat × Option (World → World × Option Call) :=
  match c, w.adapter? id with
  | .nodes c, some (.nodes r) =>
    let (w, gate, passage) := w.provide react id gate c.need
      (fun w q => w.askNode react r.session q)
      (fun w q => w.askNodeUnderRules react id r.session q)
    (w, gate, match passage with
      | .waits => none
      | .goes signal => some fun w =>
        match w.adapter? id with
        | some (.nodes r) => w.takeNodes id (r.resume c signal)
        | _ => (w, none))
  | .services c, some (.services _ client) =>
    let (w, gate, passage) := w.provide react id gate c.need
      (fun w q =>
        let (w, reply) := w.askService react client q
        (w, reply.getD (.ok ())))
      (fun w q => w.askServiceUnderRules react id client q)
    (w, gate, match passage with
      | .waits => none
      | .goes signal => some fun w =>
        match w.adapter? id with
        | some (.services r _) => w.takeServices id client (r.resume c signal)
        | _ => (w, none))
  | _, _ => (w, none, some fun w => (w, none))

/-- Takes a call as far as it gets; nothing is left of a call that is finished. -/
def advance (react : Reaction) : Nat → World → Waiting → World × Option Waiting
  | 0, w, _ => (w, none)
  | fuel + 1, w, p =>
    match w.stepCall react p.member p.gate p.call with
    | (w, gate, none) => (w, some { p with gate })
    | (w, _, some resume) =>
      match resume w with
      | (w, none) => (w, none)
      | (w, some c) => advance react fuel w { p with call := c, gate := none }

/-- Takes a waiting call as far as it gets.  The registry is in use until the call is finished. -/
def poll (w : World) (react : Reaction) (p : Waiting) : World × Option Waiting :=
  match advance react p.call.stepsLeft w p with
  | (w, none) => (w.layDownMember react p.member, none)
  | (w, some p) => (w, some p)

/-- Begins a call of a registry and takes it as far as it gets. -/
def begin (w : World) (react : Reaction) (id : Nat) (a : Action) : World × Option Waiting :=
  let w := w.takeUpMember id
  let (w, c) := match w.adapter? id with
    | some (.nodes r) => w.takeNodes id (r.start a)
    | some (.services r client) => w.takeServices id client (r.start a)
    | none => (w, none)
  match c with
  | none => (w.layDownMember react id, none)
  | some c => w.poll react ⟨id, c, none⟩

def leaveGate (w : World) (id : Nat) (ticket : Option Nat) : World :=
  w.modifyMember id fun m => { m with gate := m.gate.filter (some · != ticket) }

def cancel (w : World) (react : Reaction) (p : Waiting) : World :=
  let w := w.leaveGate p.member p.gate
  let w := match p.call, w.adapter? p.member with
    | .nodes c, some (.nodes r) => w.setAdapter p.member (.nodes (r.cancel c))
    | .services c, some (.services r client) =>
      w.setAdapter p.member (.services (r.cancel c) client)
    | _, _ => w
  w.layDownMember react p.member

end World

end Discovery.Scenario
