import Discovery.Proofs.Tree.Answer
import Discovery.Registry.Nodes
import Mathlib.Logic.Function.Basic

/-!
# Interplay

A registry over the node tree serves many calls at once, while others use the same tree.  An
`Interplay` is such a registry with its calls in progress, the server, and what its consumers were
told so far.  It goes on in moves: a call begins, a call gets what it needs and goes on until it
needs something again, a request of a call fails, or somebody else uses the tree.  Moves may come
in any order, so every interleaving of the calls at their locks and requests is a run of moves.

* `step`, `run`: one move, and a list of moves.
* `turn`, `turns`: the same, where a consumer that is to be handed what was just read is handed it
  at once, since nothing comes between the two in a call.
* `Throughout`: something holds from a state on, along a list of moves.
* `told_hearAll`, `told_ask`: what a change of the tree leads to in the registry is that consumers
  are told.
-/

namespace Discovery

/-- Whether a listener was made by a registry. -/
def Listener.isOf (id : Nat) : Listener → Bool
  | .named _ => false
  | .forwarder registry _ _ => registry == id

/-- Whether a listener was made by a registry for a key. -/
def Listener.isFor (id : Nat) (key : String) : Listener → Bool
  | .named _ => false
  | .forwarder registry k _ => registry == id && k == key

end Discovery

namespace Discovery.Registry

open Discovery.Tree (Request Reply)

/-- Word that came to a consumer: the key under which it was called, and the data. -/
structure Notice where
  key : String
  consumer : Consumer
  data : Payload
deriving DecidableEq, Repr

/-- How consumers take what they are told: what the next call of one of them comes to, after the
calls so far. -/
abbrev Conduct := List Notice → Consumer → Payload → Outcome

/-- A registry over the tree with its calls in progress, which are known by numbers. -/
structure Interplay where
  server : Tree.Server
  registry : Nodes
  calls : Nat → Option Nodes.Call
  heard : List Notice
  conduct : Conduct

/-- What may happen next. -/
inductive Move where
  /-- A call begins under a number that is free. -/
  | start (n : Nat) (a : Action)
  /-- A call gets what it needs and goes on, or finds its lock taken. -/
  | go (n : Nat)
  /-- The request of a call fails and does nothing. -/
  | fail (n : Nat) (why : Tree.Failure)
  /-- Somebody opens a session. -/
  | connect
  /-- Somebody makes a request through a session. -/
  | request (s : Tree.SessionId) (q : Request)
  /-- Somebody writes without a session. -/
  | write (p : String) (data : Bytes)
  /-- Somebody closes a session. -/
  | close (s : Tree.SessionId)
deriving DecidableEq, Repr

namespace Interplay

/-- A new registry on a session of a server. -/
def begin (conduct : Conduct) (v : Tree.Server) (id : Nat) (session : Tree.SessionId) :
    Interplay where
  server := v
  registry := .new id session
  calls _ := none
  heard := []
  conduct

/-! ## Telling -/

def host (key : String) : Host Interplay where
  roster s := s.registry.core.roster
  update f s := { s with
    registry.core.roster := f s.registry.core.roster }
  call c data s := ({ s with heard := s.heard ++ [⟨key, c, data⟩] }, s.conduct s.heard c data)
  log _ s := s

/-- A listener is called.  What the listeners of others do is not seen here. -/
def hear (s : Interplay) (d : Tree.Delivery) : Interplay :=
  match d.listener, d.event with
  | .forwarder id key _, .changed _ bytes =>
    if id = s.registry.core.id then
      match Payload.decode bytes with
      | .ok data => ((host key).tell key data s).1
      | .error _ => s
    else s
  | _, _ => s

def hearAll (s : Interplay) (ds : List Tree.Delivery) : Interplay :=
  ds.foldl hear s

/-! ## Moves -/

/-- A request is answered, and the listeners are called. -/
def ask (s : Interplay) (t : Tree.SessionId) (q : Request) : Interplay × Reply :=
  let (server, reply, ds) := s.server.answer t q
  ({ s with server }.hearAll ds, reply)

def look (s : Interplay) (ticket : Nat) : Interplay :=
  { s with registry.core.locks := s.registry.core.locks.poll ticket }

/-- What a call needs is got, unless it is a lock that is taken. -/
def provide (s : Interplay) (c : Nodes.Call) : Interplay × Option (Signal Reply) :=
  match c.need with
  | .turn ticket =>
    let s := s.look ticket
    (s, if s.registry.core.locks.holds ticket then some .admitted else none)
  | .ask q =>
    let (s, reply) := s.ask s.registry.session q
    (s, some (.answered reply))
  | .hand key c data => (((host key).tellOne key c data s).1, some .handed)

def take (s : Interplay) (n : Nat) (st : Step Nodes Nodes.Call) : Interplay :=
  { s with registry := st.registry, calls := Function.update s.calls n st.call }

def go (s : Interplay) (n : Nat) (c : Nodes.Call) : Interplay :=
  match s.provide c with
  | (s, none) => s
  | (s, some signal) => s.take n (s.registry.resume c signal)

/-- The request of a call that may fail.  The release of a watch does not. -/
def fallible? (c : Nodes.Call) : Option Request :=
  match c.need with
  | .ask (.unwatch _ _) => none
  | .ask q => some q
  | _ => none

/-- **One move**, if it is possible.  Nobody else has the listeners of the registry or closes its
session. -/
def step (s : Interplay) : Move → Option Interplay
  | .start n a =>
    match s.calls n with
    | none => some (s.take n (s.registry.start a))
    | some _ => none
  | .go n => (s.calls n).map (s.go n)
  | .fail n why =>
    match s.calls n with
    | none => none
    | some c => (fallible? c).map fun _ =>
      s.take n (s.registry.resume c (.answered (.failed why)))
  | .connect => some { s with server := s.server.connect.1 }
  | .request t q =>
    if q.listener?.any (·.isOf s.registry.core.id) then none else some (s.ask t q).1
  | .write p data =>
    let (server, _, ds) := s.server.write p data
    some ({ s with server }.hearAll ds)
  | .close t =>
    if t = s.registry.session then none
    else
      let (server, ds) := s.server.close t
      some ({ s with server }.hearAll ds)

def run (s : Interplay) (ms : List Move) : Option Interplay :=
  ms.foldlM step s

theorem run_append (s : Interplay) (ms ms' : List Move) :
    s.run (ms ++ ms') = (s.run ms).bind fun t => t.run ms' :=
  List.foldlM_append

theorem run_cons (s : Interplay) (m : Move) (ms : List Move) :
    s.run (m :: ms) = (s.step m).bind fun t => t.run ms :=
  rfl

/-- Whether a call is about to hand its consumer what it has read. -/
def handing (s : Interplay) (n : Nat) : Bool :=
  match s.calls n with
  | some (.hand _ _) => true
  | _ => false

/-- One move, after which a consumer is handed at once what was read for it. -/
def turn (s : Interplay) (m : Move) : Option Interplay :=
  match m with
  | .go n => (s.step m).bind fun s' => if s'.handing n then s'.step m else some s'
  | _ => s.step m

def turns (s : Interplay) (ms : List Move) : Option Interplay :=
  ms.foldlM turn s

/-- Something holds of a state, and of each one to which a list of moves leads from there. -/
def Throughout (next : Interplay → Move → Option Interplay) (P : Interplay → Prop) :
    Interplay → List Move → Prop
  | s, [] => P s
  | s, m :: ms => P s ∧ ∀ t, next s m = some t → Throughout next P t ms

/-- **What each move keeps, a list of moves keeps**, where `R` holds on the way. -/
theorem Throughout.keeps {next : Interplay → Move → Option Interplay} {P R : Interplay → Prop}
    {Q : Move → Prop} (hnext : ∀ {s m t}, P s → R s → Q m → next s m = some t → P t) :
    ∀ {ms : List Move} {s s' : Interplay}, Throughout next R s ms → P s → (∀ m ∈ ms, Q m) →
      ms.foldlM next s = some s' → P s' := by
  intro ms
  induction ms with
  | nil =>
    intro s s' _ h _ hs
    exact Option.some.inj hs ▸ h
  | cons m ms ih =>
    intro s s' hR h hms hs
    obtain ⟨t, ht, hs⟩ := Option.bind_eq_some_iff.1 hs
    exact ih (hR.2 t ht) (hnext h hR.1 (hms m List.mem_cons_self) ht)
      (fun x hx => hms x (List.mem_cons_of_mem _ hx)) hs

theorem throughout_true {next : Interplay → Move → Option Interplay} :
    ∀ (ms : List Move) (s : Interplay), Throughout next (fun _ => True) s ms
  | [], _ => trivial
  | _ :: ms, _ => ⟨trivial, fun t _ => throughout_true ms t⟩

end Interplay

/-! ## What telling changes -/

def Nodes.withMeter (r : Nodes) (m : Meter) : Nodes :=
  { r with core.roster.meter := m }

/-- What the consumers of a registry are told when a listener is called. -/
def Core.told (k : Core) (d : Tree.Delivery) : List Notice :=
  match d.listener, d.event with
  | .forwarder id key _, .changed _ bytes =>
    if id = k.id then
      match Payload.decode bytes with
      | .ok data => (k.roster.consumers key).map fun c => ⟨key, c, data⟩
      | .error _ => []
    else []
  | _, _ => []

namespace Interplay

variable {s s' : Interplay}

/-- The registry has counted, and its consumers have heard more; nothing else has changed. -/
def Told (s : Interplay) (new : List Notice) (s' : Interplay) : Prop :=
  ∃ m, s' = { s with registry := s.registry.withMeter m, heard := s.heard ++ new }

theorem told_nil (s : Interplay) : s.Told [] s :=
  ⟨s.registry.core.roster.meter, by rw [List.append_nil]; rfl⟩

theorem Told.trans {s s' s'' : Interplay} {new more : List Notice} (h : s.Told new s')
    (h' : s'.Told more s'') : s.Told (new ++ more) s'' := by
  obtain ⟨m, rfl⟩ := h
  obtain ⟨m', rfl⟩ := h'
  refine ⟨m', ?_⟩
  rw [← List.append_assoc]
  rfl

theorem deliver_eq (key : String) (data : Payload) (c : Consumer) (s : Interplay) :
    ((host key).deliver key data c s).1 =
      { s with heard := s.heard ++ [(⟨key, c, data⟩ : Notice)] } := by
  unfold Host.deliver
  have hcall : (host key).call c data s =
      ({ s with heard := s.heard ++ [(⟨key, c, data⟩ : Notice)] },
        s.conduct s.heard c data) := rfl
  rw [hcall]
  cases s.conduct s.heard c data <;> rfl

theorem deliverAll_eq (key : String) (data : Payload) : ∀ (cs : List Consumer) (s : Interplay),
    ((host key).deliverAll key data cs s).1 =
      { s with heard := s.heard ++ cs.map fun c => (⟨key, c, data⟩ : Notice) } := by
  intro cs
  induction cs with
  | nil => intro s; simp [Host.deliverAll]
  | cons c cs ih =>
    intro s
    show ((host key).deliverAll key data cs ((host key).deliver key data c s).1).1 = _
    rw [ih, deliver_eq]
    simp

theorem told_tell (key : String) (data : Payload) (s : Interplay) :
    s.Told ((s.registry.core.roster.consumers key).map fun c => ⟨key, c, data⟩)
      ((host key).tell key data s).1 := by
  unfold Host.tell
  have hroster : (host key).roster s = s.registry.core.roster := rfl
  rw [hroster]
  cases hcs : s.registry.core.roster.attached.get? key with
  | none =>
    have hnil : s.registry.core.roster.consumers key = [] := by
      simp [Roster.consumers, Table.getD, hcs]
    rw [hnil]
    exact told_nil s
  | some cs =>
    have hc : s.registry.core.roster.consumers key = cs := by
      simp [Roster.consumers, Table.getD, hcs]
    rw [hc]
    dsimp only
    rw [deliverAll_eq]
    exact ⟨_, rfl⟩

theorem told_tellOne (key : String) (c : Consumer) (data : Payload) (s : Interplay) :
    s.Told (if c ∈ s.registry.core.roster.consumers key then [⟨key, c, data⟩] else [])
      ((host key).tellOne key c data s).1 := by
  unfold Host.tellOne
  have hroster : (host key).roster s = s.registry.core.roster := rfl
  rw [hroster]
  by_cases hc : c ∈ s.registry.core.roster.consumers key
  · rw [if_pos hc, if_pos (List.contains_iff_mem.2 hc)]
    dsimp only
    rw [deliver_eq]
    cases ((host key).deliver key data c s).2 with
    | false => exact ⟨s.registry.core.roster.meter, rfl⟩
    | true => exact ⟨_, rfl⟩
  · rw [if_neg hc, if_neg fun h => hc (List.contains_iff_mem.1 h)]
    exact told_nil s

/-- **When a listener is called, consumers are told**, and that is all. -/
theorem told_hear (s : Interplay) (d : Tree.Delivery) :
    s.Told (s.registry.core.told d) (s.hear d) := by
  obtain ⟨l, e⟩ := d
  unfold hear Core.told
  cases l with
  | named n => exact told_nil s
  | forwarder id key serial =>
    cases e with
    | deleted p => exact told_nil s
    | changed p bytes =>
      dsimp only
      split
      · cases Payload.decode bytes with
        | error e => exact told_nil s
        | ok data => exact told_tell key data s
      · exact told_nil s

theorem told_hearAll : ∀ (ds : List Tree.Delivery) (s : Interplay),
    s.Told (ds.flatMap s.registry.core.told) (s.hearAll ds) := by
  intro ds
  induction ds with
  | nil => intro s; exact told_nil s
  | cons d ds ih =>
    intro s
    have hd := told_hear s d
    have hds := ih (s.hear d)
    have hcore : (s.hear d).registry.core.told = s.registry.core.told := by
      obtain ⟨m, hm⟩ := hd
      rw [hm]
      rfl
    rw [hcore] at hds
    exact hd.trans hds

theorem told_ask (s : Interplay) (t : Tree.SessionId) (q : Request) :
    Told { s with server := (s.server.answer t q).1 }
      ((s.server.answer t q).2.2.flatMap s.registry.core.told) (s.ask t q).1 :=
  told_hearAll _ _

end Interplay

end Discovery.Registry
