import Discovery.Proofs.Payload
import Discovery.Proofs.Registry.Listening
import Discovery.Proofs.Registry.Settling

/-!
# From one registry to another

A registry writes a payload to a node, and a registry over the same server reads it off for its
consumers.  Both go on in steps, and anybody else may use the server between them.  A `Relay` is an
interplay, which is the registry that reads, and a call that registers through another registry.

* `Carries`, `proceeds_answered`: a call that registers has to do with its own node and the
  ancestors of it, and creates the node last.
* `Interplay.mem_broughtBy_leaf`: who is told of a payload that is registered.
* `run`: any number of steps.
* `received_of_run`: what is written as a payload is read as that payload, and a consumer that is
  subscribed to an endpoint receives just what another registry registers there.
-/

namespace Discovery.Registry

open Discovery.Tree (Request Reply SessionId)
open Discovery.Tree.Path (ancestors)

namespace Nodes

variable {p : Publication} {r : Nodes} {c : Call} {missing : List String}

/-- **The calls that register a publication.**  The ancestors with which they have to do are those
of its path. -/
def Carries (p : Publication) : Call → Prop
  | .checkLeaf q | .clearLeaf q | .putLeaf q => q = p
  | .climb q here above missing => q = p ∧ ∀ a ∈ here :: (above ++ missing), a ∈ ancestors p.path
  | .build q here rest => q = p ∧ ∀ a ∈ here :: rest, a ∈ ancestors p.path
  | _ => False

theorem Carries.visit?_eq_none (hc : Carries p c) : c.visit? = none := by
  cases c <;> first | rfl | exact hc.elim

/-- What a call that registers comes to when it is given a reply: it goes on, it is done since its
node has been created, or it has failed. -/
inductive Proceeds (p : Publication) (r : Nodes) (reply : Reply) :
    Call → Step Nodes Call → Prop where
  | goOn {c c' : Call} (early : c ≠ .putLeaf p) (carries : Carries p c') :
      Proceeds p r reply c (r.goOn c')
  | done (created : ∀ e, reply ≠ .failed e) : Proceeds p r reply (.putLeaf p) r.finish
  | failed {c : Call} {name : String} {why : Failure} :
      Proceeds p r reply c (r.fail "register" name why)

theorem proceeds_buildUp {reply : Reply} (r : Nodes) (hc : c ≠ .putLeaf p)
    (h : ∀ a ∈ missing, a ∈ ancestors p.path) : Proceeds p r reply c (r.buildUp p missing) := by
  cases missing with
  | nil => exact .goOn hc rfl
  | cons here rest => exact .goOn hc ⟨rfl, h⟩

theorem proceeds_climbUp {reply : Reply} (r : Nodes) (hc : c ≠ .putLeaf p) {above : List String}
    (h : ∀ a ∈ above ++ missing, a ∈ ancestors p.path) :
    Proceeds p r reply c (r.climbUp p above missing) := by
  cases above with
  | nil => exact proceeds_buildUp r hc h
  | cons here above => exact .goOn hc ⟨rfl, h⟩

theorem proceeds_answered (hc : Carries p c) (r : Nodes) (reply : Reply) :
    Proceeds p r reply c (r.answered c reply) := by
  have hall : ∀ a ∈ ancestors p.path ++ [], a ∈ ancestors p.path := fun a ha => by
    rwa [List.append_nil] at ha
  cases c with
  | checkLeaf q =>
    obtain rfl := hc
    have hput : Call.checkLeaf q ≠ .putLeaf q := nofun
    cases reply with
    | failed e => exact .failed
    | present there =>
      cases there <;> first | exact proceeds_climbUp r hput hall | exact .goOn hput rfl
    | _ => exact proceeds_climbUp r hput hall
  | clearLeaf q =>
    obtain rfl := hc
    have hput : Call.clearLeaf q ≠ .putLeaf q := nofun
    cases reply with
    | failed e => cases e <;> first | exact proceeds_climbUp r hput hall | exact .failed
    | _ => exact proceeds_climbUp r hput hall
  | climb q here above missing =>
    obtain ⟨rfl, hmem⟩ := hc
    have hput : Call.climb q here above missing ≠ .putLeaf q := nofun
    have habove : ∀ a ∈ above ++ (here :: missing), a ∈ ancestors q.path := fun a ha => by
      refine hmem a ?_
      simp only [List.mem_append, List.mem_cons] at ha ⊢
      tauto
    have hmissing : ∀ a ∈ missing, a ∈ ancestors q.path := fun a ha =>
      habove a (List.mem_append_right _ (List.mem_cons_of_mem _ ha))
    cases reply with
    | failed e => exact .failed
    | present there =>
      cases there <;>
        first | exact proceeds_climbUp r hput habove | exact proceeds_buildUp r hput hmissing
    | _ => exact proceeds_climbUp r hput habove
  | build q here rest =>
    obtain ⟨rfl, hmem⟩ := hc
    have hput : Call.build q here rest ≠ .putLeaf q := nofun
    have hrest : ∀ a ∈ rest, a ∈ ancestors q.path := fun a ha => hmem a (List.mem_cons_of_mem _ ha)
    cases reply with
    | failed e => cases e <;> first | exact proceeds_buildUp r hput hrest | exact .failed
    | _ => exact proceeds_buildUp r hput hrest
  | putLeaf q =>
    obtain rfl := hc
    cases reply with
    | failed e => exact .failed
    | _ => exact .done nofun
  | _ => exact hc.elim

end Nodes

/-! ### What a registration brings -/

namespace Interplay

variable {place : String → String} {s : Interplay} {p : Publication} {c : Nodes.Call}
  {t : SessionId} {q : Request}

/-- What the consumers of an interplay are told when somebody makes a request. -/
def broughtBy (s : Interplay) (t : SessionId) (q : Request) : List Notice :=
  (s.server.answer t q).2.2.flatMap s.core.told

theorem broughtBy_create_of_done {path : String} {data : Bytes} {mode : Tree.Mode}
    (hdone : (s.server.answer t (.create path data mode)).2.1 = .done) :
    s.broughtBy t (.create path data mode) =
      (s.server.tree.deliveries path (.changed path data)).flatMap s.core.told := by
  unfold broughtBy
  rw [Tree.Server.owed_create hdone]

theorem broughtBy_check (s : Interplay) (t : SessionId) (path : String) :
    s.broughtBy t (.check path) = [] := by
  unfold broughtBy Tree.Server.answer
  split <;> rfl

theorem broughtBy_delete (s : Interplay) (t : SessionId) (path : String) :
    s.broughtBy t (.delete path) = [] := by
  refine List.flatMap_eq_nil_iff.2 ?_
  rintro ⟨l, e⟩ hd
  obtain ⟨path', rfl⟩ := Tree.Server.owed_delete _ hd
  exact told_deleted _ _ _

/-- When a node is created, whoever is told anything is told so under a key of the node. -/
theorem Orderly.place_of_broughtBy_create (h : s.Orderly place) {path : String} {data : Bytes}
    {mode : Tree.Mode} {y : Notice} (hy : y ∈ s.broughtBy t (.create path data mode)) :
    place y.key = path := by
  rcases Tree.Server.answer_owes (v := s.server) (s := t) (.create path data mode) with
    hnil | hdone
  · unfold broughtBy at hy
    rw [hnil] at hy
    exact nomatch hy
  · rw [broughtBy_create_of_done hdone] at hy
    rcases h.watched y.key path with hnil | ⟨hplace, _⟩
    · exact absurd hnil (mem_told_deliveries.1 hy).1
    · exact hplace.symm

/-- **Before a call creates its node**, what it does is not heard of under a key of the node. -/
theorem Orderly.place_ne_of_brought (h : s.Orderly place) (hc : Nodes.Carries p c)
    (hput : c ≠ .putLeaf p) (hneed : c.need = .ask q) :
    ∀ y ∈ s.broughtBy t q, place y.key ≠ p.path := by
  intro y hy
  cases c with
  | checkLeaf | climb =>
    cases hneed
    rw [broughtBy_check] at hy
    exact nomatch hy
  | clearLeaf =>
    cases hneed
    rw [broughtBy_delete] at hy
    exact nomatch hy
  | build p' here rest =>
    obtain ⟨rfl, hmem⟩ := hc
    cases hneed
    rw [h.place_of_broughtBy_create hy]
    exact Tree.Path.ne_of_mem_ancestors (hmem here List.mem_cons_self)
  | putLeaf p' => exact absurd (congrArg _ hc) hput
  | _ => exact hc.elim

/-- **Who is told of a payload**: the consumers of the keys for which its node is watched, and they
are told just that. -/
theorem mem_broughtBy_leaf {x : Errand} {y : Notice}
    (hdone : (s.server.answer t x.leaf).2.1 = .done) : y ∈ s.broughtBy t x.leaf ↔
      s.watchesFor y.key x.target ≠ [] ∧ y.data = x.data ∧ y.consumer ∈ s.consumers y.key := by
  unfold Errand.leaf at hdone ⊢
  rw [broughtBy_create_of_done hdone, mem_told_deliveries, Payload.decode_encode, Except.ok.injEq,
    @eq_comm _ x.data]

theorem eq_singleton_of_nodup {α : Type} {l : List α} {a : α} (hnd : l.Nodup) (ha : a ∈ l)
    (h : ∀ b ∈ l, b = a) : l = [a] := by
  have hrep := List.eq_replicate_of_mem h
  rw [hrep, List.nodup_replicate] at hnd
  have hpos := List.length_pos_of_mem ha
  rw [hrep, show l.length = 1 by omega]
  rfl

/-- **A consumer is told of a payload once** under a key. -/
theorem Orderly.filter_broughtBy_leaf (h : s.Orderly place) {x : Errand} {k : String}
    {c : Consumer} (hdone : (s.server.answer t x.leaf).2.1 = .done)
    (hmem : ⟨k, c, x.data⟩ ∈ s.broughtBy t x.leaf) :
    ((s.broughtBy t x.leaf).filter fun y => y.key == k && y.consumer == c) =
      [⟨k, c, x.data⟩] := by
  refine eq_singleton_of_nodup ?_ (List.mem_filter.2 ⟨hmem, by simp⟩) fun y hy => ?_
  · unfold Errand.leaf at hdone ⊢
    rw [broughtBy_create_of_done hdone]
    exact (h.nodup_told_deliveries _ _).filter _
  · obtain ⟨hy, hkey⟩ := List.mem_filter.1 hy
    obtain ⟨hk, hc⟩ := Bool.and_eq_true_iff.1 hkey
    obtain ⟨_, hdata, _⟩ := (mem_broughtBy_leaf hdone).1 hy
    cases y
    cases eq_of_beq hk
    cases eq_of_beq hc
    cases hdata
    rfl

end Interplay

/-! ### Two registries -/

/-- An interplay with its moves so far, a call that registers through another registry over the
same server, and what the consumers here have been told because of that call. -/
structure Relay where
  here : Interplay
  moves : List Move
  there : Nodes
  entrant : Entrant
  brought : List Notice

namespace Relay

def before (s : Interplay) (r : Nodes) (x : Errand) : Relay :=
  ⟨s, [], r, .waiting x, []⟩

/-- The call begins, or makes its next request and takes the reply. -/
def proceed (s : Relay) : Option Relay :=
  match s.entrant.stage with
  | .waiting =>
    let st := s.there.start s.entrant.errand.action
    some { s with there := st.registry, entrant := s.entrant.after [] st }
  | .under c =>
    match c.need with
    | .ask q =>
      let (here, reply) := s.here.ask s.there.session q
      let st := s.there.resume c (.answered reply)
      some ⟨here, s.moves ++ [.request s.there.session q], st.registry,
        s.entrant.after [(q, reply)] st, s.brought ++ here.heard.drop s.here.heard.length⟩
    | _ => none
  | .ended => none

/-- What may happen next. -/
inductive Event where
  /-- The interplay makes a move. -/
  | here (m : Move)
  /-- The call that registers proceeds. -/
  | there
  /-- The registry through which the call registers is used by others. -/
  | aside (r : Nodes)

def step (s : Relay) : Event → Option Relay
  | .here m => (s.here.step m).map fun here => { s with here, moves := s.moves ++ [m] }
  | .there => s.proceed
  | .aside r => if r.session = s.there.session then some { s with there := r } else none

def run (s : Relay) (es : List Event) : Option Relay :=
  es.foldlM step s

variable {s₀ : Interplay} {x : Errand} {s s' : Relay} {c : Nodes.Call} {e : Event} {q : Request}

/-- Where a call that registers stands: if it has begun, it is about its own publication. -/
def Stands (x : Errand) : Stage → Prop
  | .under c => ∃ name, Nodes.Carries (x.publication name) c
  | _ => True

/-- **What holds of a relay**: the interplay has made its moves, the call stands where it may, and
as long as it is not over, nobody has been told anything by it under a key of its target. -/
structure Holds (s₀ : Interplay) (x : Errand) (s : Relay) : Prop where
  moved : s₀.run s.moves = some s.here
  errand : s.entrant.errand = x
  stands : Stands x s.entrant.stage
  quiet : s.entrant.stage ≠ .ended → ∀ place, (∀ m ∈ s.moves, m.Placed place) →
    ∀ y ∈ s.brought, place y.key ≠ x.target

theorem holds_before (s₀ : Interplay) (r : Nodes) (x : Errand) : (before s₀ r x).Holds s₀ x where
  moved := rfl
  errand := rfl
  stands := trivial
  quiet _ _ _ _ hy := nomatch hy

theorem start_cases (x : Errand) (r : Nodes) :
    (∃ name, r.start x.action = r.goOn (.checkLeaf (x.publication name))) ∨
      ∃ name why, r.start x.action = r.fail "register" name why := by
  cases hp : x.endpoint.path with
  | ok p =>
    have htarget : x.endpoint.path = .ok x.target := by
      unfold Errand.target
      rw [hp]
    exact .inl ⟨_, Crowd.start_action htarget r⟩
  | error f =>
    refine .inr ⟨x.endpoint.describe r.core.kind, f.toFailure, ?_⟩
    unfold Errand.action Nodes.start
    simp only [hp]

/-- The request of a call that registers is a move of the interplay. -/
theorem step_request (hq : q.listener? = none) (s : Interplay) (t : SessionId) :
    s.step (.request t q) = some (s.ask t q).1 := by
  unfold Interplay.step
  dsimp only
  rw [hq]
  rfl

/-- **What a request of the call comes to.** -/
theorem proceed_under (hs : s.entrant.stage = .under c) (hneed : c.need = .ask q) :
    s.proceed = some ⟨(s.here.ask s.there.session q).1, s.moves ++ [.request s.there.session q],
      (s.there.answered c (s.here.ask s.there.session q).2).registry,
      s.entrant.after [(q, (s.here.ask s.there.session q).2)]
        (s.there.answered c (s.here.ask s.there.session q).2),
      s.brought ++ s.here.broughtBy s.there.session q⟩ := by
  have hdrop : (s.here.ask s.there.session q).1.heard.drop s.here.heard.length =
      s.here.broughtBy s.there.session q := by
    rw [Interplay.heard_ask, List.drop_left]
    rfl
  rw [← hdrop]
  unfold proceed
  simp only [hs, hneed]
  rfl

theorem Holds.proceed (h₀ : ∀ place, s₀.Orderly place) (h : s.Holds s₀ x)
    (hs : s.proceed = some s') : s'.Holds s₀ x := by
  have hstands := h.stands
  cases hstage : s.entrant.stage with
  | waiting =>
    unfold Relay.proceed at hs
    simp only [hstage, h.errand] at hs
    obtain rfl := Option.some.inj hs
    refine ⟨h.moved, h.errand, ?_, fun _ => h.quiet (by rw [hstage]; exact nofun)⟩
    rcases start_cases x s.there with ⟨name, hstart⟩ | ⟨name, why, hstart⟩ <;> rw [hstart]
    · exact ⟨name, rfl⟩
    · trivial
  | under c =>
    rw [hstage] at hstands
    obtain ⟨name, hc⟩ := hstands
    obtain ⟨q, hneed, hq⟩ := Nodes.need_of_plain hc.visit?_eq_none
    rw [proceed_under hstage hneed] at hs
    obtain rfl := Option.some.inj hs
    have hrun := Interplay.run_concat h.moved (step_request hq s.here s.there.session)
    have hstep := Nodes.proceeds_answered hc s.there (s.here.ask s.there.session q).2
    generalize s.there.answered c (s.here.ask s.there.session q).2 = st at hstep ⊢
    refine ⟨hrun, h.errand, ?_, fun hne place hms y hy => ?_⟩
    · cases hstep with
      | goOn early carries => exact ⟨name, carries⟩
      | done => trivial
      | failed => trivial
    · cases hstep with
      | goOn early carries =>
        have hbefore := fun m hm => hms m (List.mem_append_left _ hm)
        rcases List.mem_append.1 hy with hy | hy
        · exact h.quiet (by rw [hstage]; exact nofun) place hbefore y hy
        · exact ((h₀ place).run hbefore h.moved).place_ne_of_brought hc early hneed y hy
      | done => exact absurd rfl hne
      | failed => exact absurd rfl hne
  | ended =>
    unfold Relay.proceed at hs
    simp only [hstage] at hs
    exact nomatch hs

theorem Holds.step (h₀ : ∀ place, s₀.Orderly place) (h : s.Holds s₀ x)
    (hs : s.step e = some s') : s'.Holds s₀ x := by
  cases e with
  | here m =>
    obtain ⟨t, ht, rfl⟩ := Option.map_eq_some_iff.1 hs
    exact ⟨Interplay.run_concat h.moved ht, h.errand, h.stands, fun hne place hms =>
      h.quiet hne place fun a ha => hms a (List.mem_append_left _ ha)⟩
  | there => exact h.proceed h₀ hs
  | aside r =>
    obtain ⟨_, hs⟩ := Option.ite_none_right_eq_some.1 hs
    obtain rfl := Option.some.inj hs
    exact ⟨h.moved, h.errand, h.stands, h.quiet⟩

theorem Holds.run (h₀ : ∀ place, s₀.Orderly place) : ∀ {es : List Event} {s : Relay},
    s.Holds s₀ x → s.run es = some s' → s'.Holds s₀ x := by
  intro es
  induction es with
  | nil => exact fun h hs => Option.some.inj hs ▸ h
  | cons e es ih =>
    intro s h hs
    obtain ⟨t, ht, hs⟩ := Option.bind_eq_some_iff.1 hs
    exact ih (h.step h₀ ht) hs

theorem failed_after_fail (y : Entrant) (replies : List (Request × Reply)) (r : Nodes)
    (name : String) (why : Failure) :
    (y.after replies (r.fail "register" name why)).failed = true := by
  simp [Entrant.failed, Entrant.after, Nodes.fail, Core.fail]

/-- **A call that ends and has not failed** has just created its node. -/
theorem Holds.created_of_ended (h : s.Holds s₀ x) (hs : s.proceed = some s')
    (hended : s'.entrant.stage = .ended) (hok : s'.entrant.failed = false) :
    s.entrant.stage ≠ .ended ∧ (s.here.server.answer s.there.session x.leaf).2.1 = .done ∧
      s'.here = (s.here.ask s.there.session x.leaf).1 ∧
      s'.brought = s.brought ++ s.here.broughtBy s.there.session x.leaf := by
  have hstands := h.stands
  cases hstage : s.entrant.stage with
  | waiting =>
    unfold Relay.proceed at hs
    simp only [hstage, h.errand] at hs
    obtain rfl := Option.some.inj hs
    rcases start_cases x s.there with ⟨name, hstart⟩ | ⟨name, why, hstart⟩
    · simp only [hstart] at hended
      exact nomatch hended
    · simp only [hstart, failed_after_fail] at hok
      exact nomatch hok
  | under c =>
    rw [hstage] at hstands
    obtain ⟨name, hc⟩ := hstands
    obtain ⟨q, hneed, _⟩ := Nodes.need_of_plain hc.visit?_eq_none
    rw [proceed_under hstage hneed] at hs
    obtain rfl := Option.some.inj hs
    have hstep := Nodes.proceeds_answered hc s.there (s.here.ask s.there.session q).2
    generalize hst : s.there.answered c (s.here.ask s.there.session q).2 = st at hstep hended hok
    cases hstep with
    | goOn early carries => exact nomatch hended
    | done created =>
      cases hneed
      refine ⟨nofun, ?_, rfl, rfl⟩
      exact (Tree.Server.done_or_failed_create ..).resolve_right fun ⟨why, hwhy⟩ => created why hwhy
    | failed => exact nomatch (failed_after_fail ..).symm.trans hok
  | ended =>
    unfold Relay.proceed at hs
    simp only [hstage] at hs
    exact nomatch hs

/-- **Payloads survive.**  What is written as a payload is read as that payload, in whatever order
its members are written.  So when a call of another registry over the same server has registered a
payload for an endpoint, without a failure, each consumer that is subscribed to the endpoint
receives this payload, and nobody receives anything else: this is what its last request brings.
Where each key has its place, this is all that the call brings to the consumer under the key of the
endpoint, and it comes once. -/
theorem received_of_run :
    (∀ d : Payload, Payload.decode d.encode = .ok d) ∧
    (∀ (d : Payload) (l : List (String × String)), l.Perm d.entries →
      Payload.decode (Bytes.ofText (Json.object (l.map fun e => (e.1, .text e.2))).render) =
        .ok d) ∧
    ∀ {conduct : Conduct} {v : Tree.Server} {id : Nat} {session : SessionId} {there : Nodes}
      {x : Errand} {c : Consumer} {es : List Event} {s s' : Relay},
      v.isClosed session = false →
      (∀ p, ∀ w ∈ v.tree.watchesAt p, w.listener.isOf id = false) →
      (before (.begin conduct v id session) there x).run es = some s →
      s.step .there = some s' → s'.entrant.stage = .ended → s'.entrant.failed = false →
      (Interplay.begin conduct v id session).Follows x.endpoint c s.moves s.here →
      ∃ k new, x.endpoint.key Nodes.kind = .ok k ∧ s'.here.heard = s.here.heard ++ new ∧
        ⟨k, c, x.data⟩ ∈ new ∧ (∀ y ∈ new, y.data = x.data) ∧
        ∀ place, (∀ m ∈ s.moves, m.Placed place) →
          (s'.brought.filter fun y => y.key == k && y.consumer == c) = [⟨k, c, x.data⟩] := by
  refine ⟨Payload.decode_encode, fun d l => Payload.decode_ofEntries, ?_⟩
  intro conduct v id session there x c es s s' hopen hnew hrun hs hended hok hsub
  have h₀ : ∀ place, (Interplay.begin conduct v id session).Orderly place := fun place =>
    Interplay.orderly_begin hopen hnew
  have h := (holds_before _ there x).run h₀ hrun
  obtain ⟨hstage, hdone, hhere, hbrought⟩ := h.created_of_ended hs hended hok
  obtain ⟨k, p, hk, hp, hc, i, _, w, hw, _⟩ := hsub.watching (Interplay.steady_begin hopen hnew)
  obtain rfl : x.target = p := by
    unfold Errand.target
    rw [hp]
  have hmem : ⟨k, c, x.data⟩ ∈ s.here.broughtBy s.there.session x.leaf :=
    (Interplay.mem_broughtBy_leaf hdone).2 ⟨List.ne_nil_of_mem hw, rfl, hc⟩
  refine ⟨k, s.here.broughtBy s.there.session x.leaf, hk, ?_, hmem,
    fun y hy => ((Interplay.mem_broughtBy_leaf hdone).1 hy).2.1, fun place hms => ?_⟩
  · rw [hhere]
    exact Interplay.heard_ask ..
  · have horderly := (h₀ place).run hms h.moved
    rw [hbrought, List.filter_append, horderly.filter_broughtBy_leaf hdone hmem,
      List.filter_eq_nil_iff.2, List.nil_append]
    -- nothing has been heard under the key because of the call before
    intro y hy hkey
    have hyk : y.key = k := eq_of_beq (Bool.and_eq_true_iff.1 hkey).1
    refine h.quiet hstage place hms y hy ?_
    rw [hyk]
    exact horderly.place_of_broughtBy_create hmem

/-- A payload with characters that are written in other ways than they are read. -/
def awkward : Payload :=
  (∅ : Payload).insert "" "\"\\\n"

def announcement : Errand := ⟨1, Interplay.shop, awkward, true⟩

/-- A consumer subscribes through one registry while a call of another one registers. -/
def encounter : List Event :=
  [.here .connect, .here (.start 0 (.subscribe Interplay.shop "c")), .there, .here (.go 0),
    .here (.go 0), .there, .here (.go 0)]

theorem received_of_encounter : ∃ s s' new,
    (before Interplay.fresh (.new 8 2) announcement).run encounter = some s ∧
      s.step .there = some s' ∧ s'.entrant.failed = false ∧
      s'.here.heard = s.here.heard ++ new ∧ ⟨"zookeeper://h:1/a", "c", awkward⟩ ∈ new ∧
      (∀ y ∈ new, y.data = awkward) ∧
      (s'.brought.filter fun y => y.key == "zookeeper://h:1/a" && y.consumer == "c") =
        [⟨"zookeeper://h:1/a", "c", awkward⟩] := by
  obtain ⟨s, hs, hsub, hms, s', hs', hended, hok⟩ : ∃ s,
      (before Interplay.fresh (.new 8 2) announcement).run encounter = some s ∧
      Interplay.fresh.Follows Interplay.shop "c" s.moves s.here ∧
      (∀ m ∈ s.moves, m.Placed fun _ => "/a") ∧
      ∃ s', s.step .there = some s' ∧ s'.entrant.stage = .ended ∧ s'.entrant.failed = false := by
    have hlined := @Interplay.Subscription.start Interplay.fresh Interplay.shop "c" 0 [.connect]
      _ _ _ rfl rfl rfl
    have hstanding := Interplay.Subscription.watch (.enter hlined rfl rfl) rfl
    exact ⟨_, rfl, ⟨0, _, .keep (.keep hstanding rfl (by decide)) rfl (by decide)⟩,
      Interplay.placed_of_all (by decide), _, rfl, rfl, rfl⟩
  obtain ⟨k, new, hk, hheard, hmem, hdata, hplaced⟩ :=
    received_of_run.2.2 rfl (fun p w hw => absurd hw List.not_mem_nil) hs hs' hended hok hsub
  obtain rfl : "zookeeper://h:1/a" = k := Except.ok.inj hk
  exact ⟨s, s', new, hs, hs', hok, hheard, hmem, hdata, hplaced _ hms⟩

end Relay

end Discovery.Registry
