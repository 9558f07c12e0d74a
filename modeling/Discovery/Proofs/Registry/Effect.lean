import Discovery.Proofs.Registry.Orderly
import Discovery.Proofs.Tree.Answer

/-!
# What a move comes to

`Effect place s m s'` lists what the move `m` may make of an orderly interplay `s`, up to what the
registry counts: the tree may be used by others or by calls that register and unregister, which
leaves the keys alone (`Beside`), and the calls that attach and detach consumers take one of their
steps.

`step_effect`: each move has one of these effects.
-/

namespace Discovery.Registry

open Discovery.Tree (Request Reply)

/-- Calls on a key are about its place. -/
def Move.Placed (place : String → String) : Move → Prop
  | .start _ a => ∀ k p, a.endpoint.key Nodes.kind = .ok k → a.endpoint.path = .ok p → p = place k
  | _ => True

/-- Whether a call is to attach or detach a consumer. -/
def Action.onKey : Action → Bool
  | .subscribe _ _ | .unsubscribe _ _ => true
  | _ => false

namespace Nodes

theorem listenerFor_spec (k : Core) (key : String) : ∃ i,
    (listenerFor k key).2 = k.listener key i ∧
      (listenerFor k key).1.listeners.get? key = some i ∧
      (k.listeners.get? key = some i ∨ k.listeners.get? key = none) ∧
      (∀ a, a ≠ key → (listenerFor k key).1.listeners.get? a = k.listeners.get? a) ∧
      (listenerFor k key).1.roster = k.roster ∧ (listenerFor k key).1.locks = k.locks ∧
      (listenerFor k key).1.id = k.id := by
  unfold listenerFor
  cases hk : k.listeners.get? key with
  | some i => exact ⟨i, rfl, hk, .inl rfl, fun _ _ => rfl, rfl, rfl, rfl⟩
  | none =>
    exact ⟨k.nextSerial, rfl, Table.get?_insert_self _ _ _, .inr rfl,
      fun a ha => Table.get?_insert_of_ne _ _ ha, rfl, rfl, rfl⟩

/-! ### Calls that register and unregister -/

/-- A step after which the registry has at most counted, and the call is not on a key. -/
def Plain (r : Nodes) (st : Step Nodes Call) : Prop :=
  (∃ m, st.registry = r.withMeter m) ∧ ∀ c, st.call = some c → c.visit? = none

theorem plain_goOn (r : Nodes) {c : Call} (hc : c.visit? = none) : r.Plain (r.goOn c) :=
  ⟨⟨r.core.roster.meter, rfl⟩, fun _ h => Option.some.inj h ▸ hc⟩

theorem plain_finish (r : Nodes) : r.Plain r.finish :=
  ⟨⟨r.core.roster.meter, rfl⟩, fun _ h => nomatch h⟩

theorem plain_fail (r : Nodes) (operation name : String) (why : Failure) :
    r.Plain (r.fail operation name why) :=
  ⟨⟨_, rfl⟩, fun _ h => nomatch h⟩

theorem plain_buildUp (r : Nodes) (p : Publication) (missing : List String) :
    r.Plain (r.buildUp p missing) := by
  cases missing with
  | nil => exact plain_goOn r rfl
  | cons here rest => exact plain_goOn r rfl

theorem plain_climbUp (r : Nodes) (p : Publication) (above missing : List String) :
    r.Plain (r.climbUp p above missing) := by
  cases above with
  | nil => exact plain_buildUp r p missing
  | cons here above => exact plain_goOn r rfl

/-- **A call that is not on a key leaves the keys alone.** -/
theorem plain_answered (r : Nodes) {c : Call} (hc : c.visit? = none) (reply : Reply) :
    r.Plain (r.answered c reply) := by
  cases c with
  | checkLeaf p =>
    cases reply with
    | failed e => exact plain_fail ..
    | present there => cases there <;> first | exact plain_climbUp .. | exact plain_goOn r rfl
    | _ => exact plain_climbUp ..
  | clearLeaf p =>
    cases reply with
    | failed e => cases e <;> first | exact plain_climbUp .. | exact plain_fail ..
    | _ => exact plain_climbUp ..
  | climb p here above missing =>
    cases reply with
    | failed e => exact plain_fail ..
    | present there => cases there <;> first | exact plain_climbUp .. | exact plain_buildUp ..
    | _ => exact plain_climbUp ..
  | build p here rest =>
    cases reply with
    | failed e => cases e <;> first | exact plain_buildUp .. | exact plain_fail ..
    | _ => exact plain_buildUp ..
  | putLeaf p =>
    cases reply with
    | failed e => exact plain_fail ..
    | _ => exact plain_finish r
  | findLeaf name path =>
    cases reply with
    | failed e => exact plain_fail ..
    | present there => cases there <;> first | exact plain_finish r | exact plain_goOn r rfl
    | _ => exact plain_finish r
  | removeLeaf name path =>
    cases reply with
    | failed e => cases e <;> first | exact plain_finish r | exact plain_fail ..
    | _ => exact plain_finish r
  | _ => exact nomatch hc

theorem address_eq_ok_iff {r : Nodes} {e : Endpoint} {k p : String} :
    r.address e = .ok (k, p) ↔ e.key r.core.kind = .ok k ∧ e.path = .ok p := by
  unfold address
  cases e.key r.core.kind <;> cases e.path <;> simp [bind, Except.bind, pure, Except.pure]

theorem start_subscribe (r : Nodes) {e : Endpoint} {k p : String} (x : Consumer)
    (h : r.address e = .ok (k, p)) : r.start (.subscribe e x) =
      goOn { r with core := (r.core.lineUp k p x).1 } (.enter (r.core.lineUp k p x).2) := by
  unfold start
  dsimp only
  rw [h]

theorem start_unsubscribe (r : Nodes) {e : Endpoint} {k p : String} (x : Consumer)
    (h : r.address e = .ok (k, p)) : r.start (.unsubscribe e x) =
      goOn { r with core := (r.core.lineUp k p x).1 } (.enterOut (r.core.lineUp k p x).2) := by
  unfold start
  dsimp only
  rw [h]

/-- A call that begins is not on a key, unless it is to attach or detach a consumer and its
endpoint has a key and a path. -/
theorem plain_start (r : Nodes) {a : Action}
    (h : a.onKey = true → ∀ x, r.address a.endpoint ≠ .ok x) : r.Plain (r.start a) := by
  cases a with
  | register e | unregister e =>
    unfold start
    dsimp only
    cases e.path with
    | ok p => exact plain_goOn _ rfl
    | error f => exact plain_fail ..
  | subscribe e | unsubscribe e =>
    unfold start
    dsimp only
    cases haddress : r.address e with
    | ok x => exact absurd haddress (h rfl x)
    | error f => exact plain_fail ..

/-! ### The identity of the registry -/

theorem id_admitted (r : Nodes) (c : Call) : (r.admitted c).registry.core.id = r.core.id := by
  cases c with
  | enter v =>
    obtain ⟨_, _, _, _, _, _, _, hid⟩ := listenerFor_spec (r.core.attach v) v.key
    exact hid
  | enterOut v =>
    unfold admitted Core.forgetListener
    dsimp only
    split
    · rfl
    · cases (r.core.detach v).listeners.get? v.key <;> rfl
  | _ => rfl

theorem id_answered (r : Nodes) (c : Call) (reply : Reply) :
    (r.answered c reply).registry.core.id = r.core.id := by
  have hplain : c.visit? = none → (r.answered c reply).registry.core.id = r.core.id := by
    intro hc
    obtain ⟨⟨m, hm⟩, _⟩ := plain_answered r hc reply
    rw [hm]
    rfl
  cases c with
  | read v =>
    cases reply with
    | found data =>
      cases data with
      | none => rfl
      | some bytes =>
        unfold answered
        dsimp only
        cases Payload.decode bytes <;> rfl
    | _ => rfl
  | watch | unwatch => cases reply <;> rfl
  | enter | hand | enterOut => rfl
  | _ => exact hplain rfl

theorem id_resume (r : Nodes) (c : Call) (signal : Signal Reply) :
    (r.resume c signal).registry.core.id = r.core.id := by
  cases signal with
  | admitted => exact id_admitted r c
  | answered reply => exact id_answered r c reply
  | handed => cases c <;> rfl

theorem id_start (r : Nodes) (a : Action) : (r.start a).registry.core.id = r.core.id := by
  cases a with
  | register e | unregister e =>
    unfold start
    dsimp only
    cases e.path <;> rfl
  | subscribe e | unsubscribe e =>
    unfold start
    dsimp only
    cases r.address e <;> rfl

theorem need_of_plain {c : Call} (hc : c.visit? = none) :
    ∃ q, c.need = .ask q ∧ q.listener? = none := by
  cases c <;> first | exact ⟨_, rfl, rfl⟩ | exact nomatch hc

end Nodes

/-! ### Listeners of others -/

theorem isFor_listener (k : Core) (a b : String) (i : Nat) :
    (k.listener a i).isFor k.id b = (a == b) := by
  show (k.id == k.id && a == b) = (a == b)
  rw [beq_self_eq_true, Bool.true_and]

theorem isOf_of_isFor {l : Listener} {id : Nat} {k : String} (h : l.isFor id k = true) :
    l.isOf id = true := by
  cases l with
  | named n => exact nomatch h
  | forwarder r a i => exact (Bool.and_eq_true_iff.1 h).1

/-- A watch that is put on a path or taken off it for somebody else is not for a key. -/
theorem filter_watchesAt_answer {v : Tree.Server} {t : Tree.SessionId} {q : Request} {id : Nat}
    (hq : ∀ l, q.listener? = some l → l.isOf id = false) (k p : String) :
    ((v.answer t q).1.tree.watchesAt p).filter (·.listener.isFor id k) =
      (v.tree.watchesAt p).filter (·.listener.isFor id k) := by
  have hnot : ∀ l, q.listener? = some l → l.isFor id k = false := by
    intro l hl
    rw [Bool.eq_false_iff]
    intro hf
    exact nomatch (isOf_of_isFor hf).symm.trans (hq l hl)
  cases hn : q.listener? with
  | none =>
    unfold Tree.watchesAt
    rw [Tree.Server.watches_answer hn]
  | some l =>
    unfold Tree.Server.answer
    split
    · rfl
    · cases q with
      | watch p' l' =>
        show ((v.tree.watch t p' l').watchesAt p).filter _ = _
        rw [Tree.watchesAt_watch]
        split
        · next h =>
          rw [h.1, List.filter_append, List.filter_cons_of_neg (by rw [hnot l' rfl]; decide),
            List.filter_nil, List.append_nil]
        · rfl
      | unwatch p' l' =>
        show ((v.tree.unwatch p' l').watchesAt p).filter _ = _
        rw [Tree.watchesAt_unwatch]
        split
        · next h =>
          rw [h, List.filter_filter]
          refine List.filter_congr fun w _ => ?_
          by_cases hw : w.listener = l'
          · rw [hw, hnot l' rfl]
            rfl
          · rw [bne_iff_ne.2 hw, Bool.and_true]
        · rfl
      | _ => exact nomatch hn

namespace Interplay

variable {place : String → String} {s s' : Interplay} {n : Nat} {c : Nodes.Call} {v : Visit}

/-! ### Besides the keys -/

/-- Something has happened that leaves the keys alone: the tree has been used. -/
structure Beside (s s' : Interplay) : Prop where
  registry : ∃ m, s'.registry = s.registry.withMeter m
  calls : ∀ n c v, c.visit? = some v → (s'.calls n = some c ↔ s.calls n = some c)
  watches : ∀ k p, s'.watchesFor k p = s.watchesFor k p
  isClosed : s'.server.isClosed s.registry.session = s.server.isClosed s.registry.session
  /-- Who has heard of new data was to be told of it. -/
  heard : ∃ ds, Tree.Changed s.server.tree s'.server.tree ds ∧
    s'.heard = s.heard ++ ds.flatMap s.core.told

theorem Beside.consumers (h : s.Beside s') (k : String) : s'.consumers k = s.consumers k := by
  obtain ⟨m, hm⟩ := h.registry
  unfold Interplay.consumers core
  rw [hm]
  rfl

theorem beside_hearAll {server : Tree.Server} {ds : List Tree.Delivery}
    (hw : ∀ k p, (server.tree.watchesAt p).filter (·.listener.isFor s.core.id k) =
      s.watchesFor k p)
    (ho : server.isClosed s.registry.session = s.server.isClosed s.registry.session)
    (hd : Tree.Changed s.server.tree server.tree ds) :
    s.Beside ({ s with server }.hearAll ds) := by
  obtain ⟨m, hm⟩ := told_hearAll ds { s with server }
  rw [hm]
  exact ⟨⟨m, rfl⟩, fun _ _ _ _ => .rfl, hw, ho, ds, hd, rfl⟩

theorem beside_ask {t : Tree.SessionId} {q : Request}
    (hq : ∀ l, q.listener? = some l → l.isOf s.core.id = false) : s.Beside (s.ask t q).1 :=
  beside_hearAll (filter_watchesAt_answer hq) (Tree.Server.isClosed_answer _ _ _ _)
    (Tree.Server.changed_answer _ _ _)

theorem Beside.take (h : s.Beside s') {st : Step Nodes Nodes.Call} (hst : s'.registry.Plain st)
    (hn : ∀ c, s.calls n = some c → c.visit? = none) : s.Beside (s'.take n st) := by
  obtain ⟨⟨m, hm⟩, hc⟩ := hst
  obtain ⟨m', hm'⟩ := h.registry
  have hr : (s'.take n st).registry = s.registry.withMeter m := by
    show st.registry = _
    rw [hm, hm']
    rfl
  refine ⟨⟨m, hr⟩, fun n' c v hv => ?_, fun k p => ?_, h.isClosed, h.heard⟩
  · show Function.update s'.calls n st.call n' = some c ↔ _
    rw [Function.update_apply]
    split
    · next hnn =>
      subst hnn
      refine ⟨fun he => ?_, fun he => ?_⟩
      · rw [hc c he] at hv
        exact nomatch hv
      · rw [hn c he] at hv
        exact nomatch hv
    · exact h.calls n' c v hv
  · have hid : (s'.take n st).core.id = s'.core.id := by
      show (s'.take n st).registry.core.id = s'.registry.core.id
      rw [hr, hm']
      rfl
    exact (watchesFor_congr hid rfl k).trans (h.watches k p)

theorem beside_refl (s : Interplay) : s.Beside s :=
  ⟨⟨s.core.roster.meter, rfl⟩, fun _ _ _ _ => .rfl, fun _ _ => rfl, rfl, [],
    Tree.changed_refl s.server.tree, (List.append_nil _).symm⟩

/-- What moves rely on: the registry is over the tree, its session is open, and its watches belong
to the session. -/
structure Grounded (s : Interplay) : Prop where
  kind : s.core.kind = Nodes.kind
  isOpen : s.server.isClosed s.registry.session = false
  own : ∀ k p, ∀ w ∈ s.watchesFor k p, w.session = s.registry.session

theorem Orderly.grounded (h : s.Orderly place) : s.Grounded where
  kind := h.kind
  isOpen := h.isOpen
  own k p w hw := by
    rcases h.watched k p with hnil | ⟨_, i, hi, _⟩
    · rw [hnil] at hw
      exact nomatch hw
    · rw [hi] at hw
      obtain rfl := List.mem_singleton.1 hw
      rfl

theorem Grounded.beside_close (h : s.Grounded) {t : Tree.SessionId}
    (ht : t ≠ s.registry.session) :
    s.Beside ({ s with server := (s.server.close t).1 }.hearAll (s.server.close t).2) := by
  refine beside_hearAll (fun k p => ?_) (Tree.Server.isClosed_close (Ne.symm ht))
    (Tree.Server.changed_close _ _)
  rw [Tree.Server.watchesAt_close]
  split
  · rfl
  · rw [List.filter_comm]
    exact List.filter_eq_self.2 fun w hw => bne_iff_ne.2 fun hs =>
      ht (hs.symm.trans (h.own k p w hw))

/-! ### The steps of a call on a key -/

/-- A call begins: it lines up for its key. -/
def line (s : Interplay) (n : Nat) (call : Visit → Nodes.Call) (k p : String) (c : Consumer) :
    Interplay :=
  s.take n ({ s.registry with core := (s.core.lineUp k p c).1 }.goOn
    (call (s.core.lineUp k p c).2))

def letIn (s : Interplay) (n : Nat) (c : Nodes.Call) : Interplay :=
  s.take n (s.registry.admitted c)

def watch (s : Interplay) (n : Nat) (v : Visit) (l : Listener) : Interplay :=
  { s with server.tree := s.server.tree.watch s.registry.session v.path l }.take n
    (s.registry.goOn (.read v))

def find (s : Interplay) (n : Nat) (v : Visit) (data : Payload) : Interplay :=
  s.take n (s.registry.goOn (.hand v data))

def hearing (s : Interplay) (new : List Notice) : Interplay :=
  { s with heard := s.heard ++ new }

def unwatch (s : Interplay) (v : Visit) (l : Listener) : Interplay :=
  { s with server.tree := s.server.tree.unwatch v.path l }

/-- A call is over, and its lock is free again; something may have been counted. -/
def leave (s : Interplay) (n : Nat) (v : Visit) (m : Meter) : Interplay :=
  s.take n (Nodes.depart v (s.registry.withMeter m).finish)

def handed (s : Interplay) (v : Visit) (data : Payload) : List Notice :=
  if v.consumer ∈ s.consumers v.key then [⟨v.key, v.consumer, data⟩] else []

/-- **What a move comes to.** -/
inductive Effect (place : String → String) (s : Interplay) : Move → Interplay → Prop where
  /-- The keys are left alone. -/
  | beside {m : Move} {s' : Interplay} (h : s.Beside s') : Effect place s m s'
  /-- A call to attach a consumer lines up for its key. -/
  | lineIn {n : Nat} {e : Endpoint} {k : String} {c : Consumer} (hfree : s.calls n = none)
      (hk : e.key Nodes.kind = .ok k) :
      Effect place s (.start n (.subscribe e c)) (s.line n .enter k (place k) c)
  /-- A call to detach a consumer lines up for its key. -/
  | lineOut {n : Nat} {e : Endpoint} {k : String} {c : Consumer} (hfree : s.calls n = none) :
      Effect place s (.start n (.unsubscribe e c)) (s.line n .enterOut k (place k) c)
  /-- A call looks whether it has its lock. -/
  | look {n t : Nat} : Effect place s (.go n) (s.look t)
  /-- A call has its lock and attaches its consumer. -/
  | enter {n : Nat} {v : Visit} (hc : s.calls n = some (.enter v))
      (hh : (s.look v.ticket).core.locks.holds v.ticket = true) :
      Effect place s (.go n) ((s.look v.ticket).letIn n (.enter v))
  /-- A call has its lock and detaches its consumer. -/
  | enterOut {n : Nat} {v : Visit} (hc : s.calls n = some (.enterOut v))
      (hh : (s.look v.ticket).core.locks.holds v.ticket = true) :
      Effect place s (.go n) ((s.look v.ticket).letIn n (.enterOut v))
  /-- A call has the node of its key watched. -/
  | watch {n : Nat} {v : Visit} {l : Listener} (hc : s.calls n = some (.watch v l)) :
      Effect place s (.go n) (s.watch n v l)
  /-- A call reads data. -/
  | find {n : Nat} {v : Visit} {bytes : Bytes} {data : Payload} (hc : s.calls n = some (.read v))
      (hbytes : s.server.tree.data? v.path = some bytes) (hdata : Payload.decode bytes = .ok data) :
      Effect place s (.go n) (s.find n v data)
  /-- A call reads that there is no data. -/
  | miss {n : Nat} {v : Visit} {m : Meter} (hc : s.calls n = some (.read v))
      (hno : ∀ bytes data, s.server.tree.data? v.path = some bytes →
        Payload.decode bytes ≠ .ok data) :
      Effect place s (.go n) (s.leave n v m)
  /-- A call hands its consumer the data. -/
  | hand {n : Nat} {v : Visit} {data : Payload} {m : Meter} (hc : s.calls n = some (.hand v data)) :
      Effect place s (.go n) ((s.hearing (s.handed v data)).leave n v m)
  /-- A call has the node of its key watched no longer. -/
  | unwatch {n : Nat} {v : Visit} {l : Listener} {m : Meter}
      (hc : s.calls n = some (.unwatch v l)) :
      Effect place s (.go n) ((s.unwatch v l).leave n v m)
  /-- The request of a call fails. -/
  | broken {n : Nat} {why : Tree.Failure} {c : Nodes.Call} {v : Visit} {m : Meter}
      (hc : s.calls n = some c) (hcall : (∃ l, c = .watch v l) ∨ c = .read v) :
      Effect place s (.fail n why) (s.leave n v m)

/-! ### Each move has an effect -/

theorem go_look {t : Nat} (hneed : c.need = .turn t) : s.go n c =
    if (s.look t).core.locks.holds t then
      (s.look t).take n ((s.look t).registry.resume c .admitted) else s.look t := by
  unfold go provide
  rw [hneed]
  dsimp only
  by_cases hh : (s.look t).core.locks.holds t = true
  · rw [if_pos hh, if_pos hh]
  · rw [if_neg hh, if_neg hh]

theorem go_ask {q : Request} (hneed : c.need = .ask q) : s.go n c =
    (s.ask s.registry.session q).1.take n ((s.ask s.registry.session q).1.registry.answered c
      (s.ask s.registry.session q).2) := by
  unfold go provide
  rw [hneed]
  rfl

theorem Grounded.ask_eq (h : s.Grounded) (q : Request) : s.ask s.registry.session q =
    ({ s with server := (s.server.perform s.registry.session q).1 }.hearAll
      (s.server.perform s.registry.session q).2.2,
        (s.server.perform s.registry.session q).2.1) := by
  unfold ask
  rw [Tree.Server.answer_of_open h.isOpen]

theorem Grounded.go_watch (h : s.Grounded) (n : Nat) (v : Visit) (l : Listener) :
    s.go n (.watch v l) = s.watch n v l := by
  rw [go_ask rfl, h.ask_eq]
  rfl

theorem go_hand (s : Interplay) (n : Nat) (v : Visit) (data : Payload) :
    ∃ m, s.go n (.hand v data) = (s.hearing (s.handed v data)).leave n v m := by
  obtain ⟨m, hm⟩ := told_tellOne v.key v.consumer data s
  refine ⟨m, ?_⟩
  show ((host v.key).tellOne v.key v.consumer data s).1.take n
    (Nodes.depart v ((host v.key).tellOne v.key v.consumer data s).1.registry.finish) = _
  rw [hm]
  rfl

/-- What a path has that can be decoded. -/
def found? (s : Interplay) (p : String) : Option Payload :=
  (s.server.tree.data? p).bind fun bytes => (Payload.decode bytes).toOption

theorem found?_eq_some_iff {p : String} {data : Payload} : s.found? p = some data ↔
    ∃ bytes, s.server.tree.data? p = some bytes ∧ Payload.decode bytes = .ok data := by
  unfold found?
  rw [Option.bind_eq_some_iff]
  refine exists_congr fun bytes => and_congr_right fun _ => ?_
  cases Payload.decode bytes <;> simp [Except.toOption]

theorem Grounded.go_read (h : s.Grounded) (n : Nat) (v : Visit) : s.go n (.read v) =
    match s.found? v.path with
    | some data => s.find n v data
    | none => s.leave n v s.core.roster.meter := by
  rw [go_ask rfl, h.ask_eq]
  show s.take n (s.registry.answered (.read v) (.found (s.server.tree.data? v.path))) = _
  unfold found? Nodes.answered
  cases s.server.tree.data? v.path with
  | none => rfl
  | some bytes =>
    dsimp only [Option.bind]
    cases Payload.decode bytes <;> rfl

theorem Grounded.go_unwatch (h : s.Grounded) (n : Nat) (v : Visit) (l : Listener) :
    s.go n (.unwatch v l) = (s.unwatch v l).leave n v s.core.roster.meter := by
  rw [go_ask rfl, h.ask_eq]
  rfl

theorem beside_go (hc : s.calls n = some c) (hv : c.visit? = none) : s.Beside (s.go n c) := by
  obtain ⟨q, hneed, hq⟩ := Nodes.need_of_plain hv
  rw [go_ask hneed]
  refine (beside_ask fun l hl => nomatch hq.symm.trans hl).take
    (Nodes.plain_answered _ hv _) fun c' hc' => ?_
  rw [hc] at hc'
  exact Option.some.inj hc' ▸ hv

theorem Grounded.effect_go (h : s.Grounded) (hc : s.calls n = some c) :
    Effect place s (.go n) (s.go n c) := by
  cases hv : c.visit? with
  | none => exact .beside (beside_go hc hv)
  | some v =>
    cases c with
    | enter v =>
      rw [go_look rfl]
      split
      · next hh => exact .enter hc hh
      · exact .look
    | enterOut v =>
      rw [go_look rfl]
      split
      · next hh => exact .enterOut hc hh
      · exact .look
    | watch v l => exact h.go_watch n v l ▸ .watch hc
    | read v =>
      rw [h.go_read]
      cases hfound : s.found? v.path with
      | some data =>
        obtain ⟨bytes, hbytes, hdata⟩ := found?_eq_some_iff.1 hfound
        exact .find hc hbytes hdata
      | none =>
        refine .miss hc fun bytes data hbytes hdata => ?_
        exact nomatch hfound.symm.trans (found?_eq_some_iff.2 ⟨bytes, hbytes, hdata⟩)
    | hand v data =>
      obtain ⟨m, hgo⟩ := s.go_hand n v data
      rw [hgo]
      exact .hand hc
    | unwatch v l =>
      rw [h.go_unwatch]
      exact .unwatch hc
    | _ => exact nomatch hv

theorem Grounded.address_spec (h : s.Grounded) {a : Action}
    (ha : (Move.start n a).Placed place) {k p : String}
    (haddress : s.registry.address a.endpoint = .ok (k, p)) :
    a.endpoint.key Nodes.kind = .ok k ∧ p = place k := by
  obtain ⟨hk, hp⟩ := Nodes.address_eq_ok_iff.1 haddress
  have hk' : a.endpoint.key Nodes.kind = .ok k := h.kind ▸ hk
  exact ⟨hk', ha k p hk' hp⟩

theorem Grounded.effect_start (h : s.Grounded) {a : Action}
    (ha : (Move.start n a).Placed place) (hfree : s.calls n = none) :
    Effect place s (.start n a) (s.take n (s.registry.start a)) := by
  have hbeside : (a.onKey = true → ∀ x, s.registry.address a.endpoint ≠ .ok x) →
      Effect place s (.start n a) (s.take n (s.registry.start a)) :=
    fun hkey => .beside (s.beside_refl.take (Nodes.plain_start s.registry hkey)
      fun c hc => nomatch hfree.symm.trans hc)
  cases a with
  | register | unregister => exact hbeside nofun
  | subscribe e c =>
    cases haddress : s.registry.address e with
    | error f => exact hbeside fun _ x hx => nomatch haddress.symm.trans hx
    | ok x =>
      obtain ⟨k, p⟩ := x
      obtain ⟨hk, rfl⟩ := h.address_spec ha haddress
      rw [Nodes.start_subscribe _ _ haddress]
      exact .lineIn hfree hk
  | unsubscribe e c =>
    cases haddress : s.registry.address e with
    | error f => exact hbeside fun _ x hx => nomatch haddress.symm.trans hx
    | ok x =>
      obtain ⟨k, p⟩ := x
      obtain ⟨_, rfl⟩ := h.address_spec ha haddress
      rw [Nodes.start_unsubscribe _ _ haddress]
      exact .lineOut hfree

theorem effect_fail {why : Tree.Failure} {q : Request} (hc : s.calls n = some c)
    (hq : fallible? c = some q) :
    Effect place s (.fail n why) (s.take n (s.registry.resume c (.answered (.failed why)))) := by
  cases hv : c.visit? with
  | none =>
    refine .beside (s.beside_refl.take (Nodes.plain_answered _ hv _) fun c' hc' => ?_)
    rw [hc] at hc'
    exact Option.some.inj hc' ▸ hv
  | some v =>
    cases c with
    | watch v l => exact .broken hc (.inl ⟨l, rfl⟩)
    | read v => exact .broken hc (.inr rfl)
    | enter v => exact nomatch hq
    | enterOut v => exact nomatch hq
    | hand v data => exact nomatch hq
    | unwatch v l => exact nomatch hq
    | _ => exact nomatch hv

/-- **Each move has one of the effects.** -/
theorem Grounded.step_effect (h : s.Grounded) {m : Move} (hm : m.Placed place)
    (hs : s.step m = some s') : Effect place s m s' := by
  cases m with
  | start n a =>
    dsimp only [step] at hs
    cases hfree : s.calls n with
    | none =>
      rw [hfree] at hs
      exact Option.some.inj hs ▸ h.effect_start hm hfree
    | some c =>
      rw [hfree] at hs
      exact nomatch hs
  | go n =>
    obtain ⟨c, hc, rfl⟩ := Option.map_eq_some_iff.1 hs
    exact h.effect_go hc
  | fail n why =>
    dsimp only [step] at hs
    cases hc : s.calls n with
    | none =>
      rw [hc] at hs
      exact nomatch hs
    | some c =>
      rw [hc] at hs
      obtain ⟨q, hq, rfl⟩ := Option.map_eq_some_iff.1 hs
      exact effect_fail hc hq
  | connect =>
    obtain rfl := Option.some.inj hs
    have hb : s.Beside ({ s with server := s.server.connect.1 }.hearAll []) :=
      beside_hearAll (fun _ _ => rfl) rfl (Tree.changed_refl s.server.tree)
    exact .beside hb
  | request t q =>
    obtain ⟨hq, hs⟩ := Option.ite_none_left_eq_some.1 hs
    obtain rfl := Option.some.inj hs
    refine .beside (beside_ask fun l hl => ?_)
    rw [hl] at hq
    exact Bool.eq_false_iff.2 hq
  | write p data =>
    have hw : { s with server := (s.server.write p data).1 }.hearAll
        (s.server.write p data).2.2 = s' := Option.some.inj hs
    rw [← hw]
    refine .beside (beside_hearAll (fun k q => ?_) (Tree.Server.isClosed_write _ _ _ _)
      (Tree.Server.changed_serverWrite _ _ _))
    unfold watchesFor Tree.watchesAt
    rw [Tree.Server.watches_serverWrite]
  | close t =>
    obtain ⟨ht, hs⟩ := Option.ite_none_left_eq_some.1 hs
    obtain rfl := Option.some.inj hs
    exact .beside (h.beside_close ht)

theorem Orderly.go_watch (h : s.Orderly place) (n : Nat) (v : Visit) (l : Listener) :
    s.go n (.watch v l) = s.watch n v l :=
  h.grounded.go_watch n v l

/-- **Each move of an orderly interplay has one of the effects.** -/
theorem Orderly.step_effect (h : s.Orderly place) {m : Move} (hm : m.Placed place)
    (hs : s.step m = some s') : Effect place s m s' :=
  h.grounded.step_effect hm hs

end Interplay

end Discovery.Registry
