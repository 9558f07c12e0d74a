import Discovery.Proofs.Locks.Line
import Discovery.Proofs.Registry.Effect
import Discovery.Proofs.Registry.Progress
import Discovery.Proofs.Registry.Solo
import Discovery.Proofs.Services.Interplay
import Discovery.Proofs.Tree.Ancestors

/-!
# Failures are counted once

A registry tells nobody that a call of it has failed, but counts it.  Whatever its client answers,
a call that runs alone comes to its end; its failure is counted once if its endpoint lacks what it
needs or the client answers with an error that it does not tolerate, and after such an error it
asks for nothing more.

* `Nodes.Tolerated`: the errors over the node tree that are none.
* `Nodes.keeps`, `Services.keeps`: each step of a call over the node tree, or over a naming client.
* `counted_once`: the calls of both kinds of registry.
-/

namespace Discovery.Registry

open Discovery.Tree (Reply Request)
open Discovery.Tree.Path (ancestors)

namespace Nodes

/-! ### Over the node tree -/

/-- **The errors that a call tolerates**: an ancestor that it creates has come meanwhile, or the
node that it deletes has gone. -/
inductive Tolerated (a : Action) : Request → Tree.Failure → Prop
  | ancestor {leaf here : String} {data : Bytes} {mode : Tree.Mode} (p : String)
      (path : a.endpoint.path = .ok leaf) (above : here ∈ ancestors leaf) :
      Tolerated a (.create here data mode) (.nodeExists p)
  | leaf {leaf : String} (p : String) (path : a.endpoint.path = .ok leaf) :
      Tolerated a (.delete leaf) (.noNode p)

/-- A reply is an error, and not one that is tolerated. -/
def Refused (a : Action) (q : Request) (reply : Reply) : Prop :=
  ∃ e, reply = .failed e ∧ ¬ Tolerated a q e

/-- An endpoint has a path, and if its consumers are to be known, a key. -/
def Named (kind : String) : Action → Prop
  | .register e _ _ | .unregister e => ∃ p, e.path = .ok p
  | .subscribe e _ | .unsubscribe e _ => (∃ k, e.key kind = .ok k) ∧ ∃ p, e.path = .ok p

def workings : Workings Nodes Call Request Reply where
  core := core
  modify f r := { r with core := f r.core }
  core_modify _ _ := rfl
  start := start
  need := Call.need
  resume := resume
  left := Call.stepsLeft
  left_resume {_ _ signal _} h hd := stepsLeft_resume (by cases signal <;> exact h) hd
  Named k := Named k.kind
  Refused := Refused

/-- The call is to register an endpoint at a path. -/
def Registers (a : Action) (p : Publication) : Prop :=
  a.operation = "register" ∧ a.endpoint.path = .ok p.path

/-- **The calls that serve an action.**  The ancestors with which they have to do are those of the
node. -/
def Serves (a : Action) : Call → Prop
  | .checkLeaf p | .clearLeaf p | .putLeaf p => Registers a p
  | .climb p here above missing =>
    Registers a p ∧ ∀ q ∈ here :: (above ++ missing), q ∈ ancestors p.path
  | .build p here rest => Registers a p ∧ ∀ q ∈ here :: rest, q ∈ ancestors p.path
  | .findLeaf _ path | .removeLeaf _ path =>
    a.operation = "unregister" ∧ a.endpoint.path = .ok path
  | .enter _ | .watch _ _ | .read _ | .hand _ _ => a.operation = "subscribe"
  | .enterOut _ | .unwatch _ _ => a.operation = "unsubscribe"

variable {a : Action} {r : Nodes} {k : Core} {c d : Call} {p : Publication} {v : Visit}
  {st : Step Nodes Call} {q : Request} {reply : Reply} {operation name : String} {why : Failure}

theorem not_refused (h : ∀ e, reply ≠ .failed e) : ¬ Refused a q reply :=
  fun ⟨e, he, _⟩ => h e he

theorem not_refused_of_tolerated {e : Tree.Failure} (h : Tolerated a q e) :
    ¬ Refused a q (.failed e) :=
  fun ⟨_, he, hn⟩ => hn (Reply.failed.inj he ▸ h)

theorem exists_address_iff {e : Endpoint} :
    (∃ x, r.address e = .ok x) ↔ (∃ key, e.key r.core.kind = .ok key) ∧ ∃ p, e.path = .ok p := by
  unfold address
  cases e.key r.core.kind <;> cases e.path <;> simp [bind, Except.bind, pure, Except.pure]

/-! #### Steps -/

theorem well_goOn (h : Serves a c) : workings.Well Serves a r.core (r.goOn c) :=
  ⟨Core.counts_refl _, fun _ hd => Option.some.inj hd ▸ h⟩

theorem well_finish : workings.Well Serves a r.core r.finish :=
  ⟨Core.counts_refl _, fun _ hd => nomatch hd⟩

theorem ill_fail (h : a.operation = operation) :
    workings.Ill a r.core (r.fail operation name why) :=
  ⟨h ▸ Core.counts_fail r.core operation name why.message, rfl⟩

theorem well_depart (h : workings.Well Serves a k st) : workings.Well Serves a k (depart v st) :=
  ⟨h.counts.still rfl rfl, h.serves⟩

theorem ill_depart (h : workings.Ill a k st) : workings.Ill a k (depart v st) :=
  ⟨h.counts.still rfl rfl, h.ended⟩

theorem well_buildUp (hp : Registers a p) {missing : List String}
    (h : ∀ q ∈ missing, q ∈ ancestors p.path) :
    workings.Well Serves a r.core (r.buildUp p missing) := by
  cases missing with
  | nil => exact well_goOn hp
  | cons here rest => exact well_goOn ⟨hp, h⟩

theorem well_climbUp (hp : Registers a p) {above missing : List String}
    (h : ∀ q ∈ above ++ missing, q ∈ ancestors p.path) :
    workings.Well Serves a r.core (r.climbUp p above missing) := by
  cases above with
  | nil => exact well_buildUp hp h
  | cons here above => exact well_goOn ⟨hp, h⟩

theorem well_climbUp_ancestors (hp : Registers a p) :
    workings.Well Serves a r.core (r.climbUp p (ancestors p.path) []) :=
  well_climbUp hp fun _ hq => by rwa [List.append_nil] at hq

theorem judged_start (r : Nodes) (a : Action) :
    workings.Judged Serves a (¬ Named r.core.kind a) r.core (r.start a) := by
  cases a with
  | register e | unregister e =>
    unfold start
    dsimp only
    cases hpath : e.path with
    | ok path => exact .of_well (not_not_intro ⟨path, hpath⟩) (well_goOn ⟨rfl, hpath⟩)
    | error f =>
      refine .of_ill ?_ (ill_fail rfl)
      rintro ⟨path, h⟩
      exact nomatch h.symm.trans hpath
  | subscribe e x | unsubscribe e x =>
    unfold start
    dsimp only
    cases haddress : r.address e with
    | ok x =>
      refine .of_well (not_not_intro (exists_address_iff.1 ⟨x, haddress⟩)) ?_
      exact ⟨Core.counts_of_failures rfl rfl, fun _ hd => Option.some.inj hd ▸ rfl⟩
    | error f =>
      refine .of_ill (fun hn => ?_) (ill_fail rfl)
      obtain ⟨x, hx⟩ := exists_address_iff.2 hn
      exact nomatch hx.symm.trans haddress

/-- **An answer of the tree** is counted if it is a refusal, and else the call goes on. -/
theorem judged_answered (r : Nodes) (reply : Reply) (hs : Serves a c) (hneed : c.need = .ask q) :
    workings.Judged Serves a (Refused a q reply) r.core (r.answered c reply) := by
  cases c with
  | checkLeaf p =>
    cases hneed
    cases reply with
    | failed e => exact .of_ill ⟨e, rfl, nofun⟩ (ill_fail hs.1)
    | present there =>
      cases there with
      | true => exact .of_well (not_refused nofun) (well_goOn hs)
      | false => exact .of_well (not_refused nofun) (well_climbUp_ancestors hs)
    | _ => exact .of_well (not_refused nofun) (well_climbUp_ancestors hs)
  | clearLeaf p =>
    cases hneed
    cases reply with
    | failed e =>
      cases e with
      | noNode x =>
        exact .of_well (not_refused_of_tolerated (.leaf x hs.2)) (well_climbUp_ancestors hs)
      | _ => exact .of_ill ⟨_, rfl, nofun⟩ (ill_fail hs.1)
    | _ => exact .of_well (not_refused nofun) (well_climbUp_ancestors hs)
  | climb p here above missing =>
    cases hneed
    obtain ⟨hp, hs⟩ := hs
    have hbuild : ∀ x ∈ missing, x ∈ ancestors p.path :=
      fun x hx => hs x (List.mem_cons_of_mem _ (List.mem_append_right _ hx))
    have hclimb : ∀ x ∈ above ++ here :: missing, x ∈ ancestors p.path :=
      fun x hx => hs x (List.perm_middle.mem_iff.1 hx)
    cases reply with
    | failed e => exact .of_ill ⟨e, rfl, nofun⟩ (ill_fail hp.1)
    | present there =>
      cases there with
      | true => exact .of_well (not_refused nofun) (well_buildUp hp hbuild)
      | false => exact .of_well (not_refused nofun) (well_climbUp hp hclimb)
    | _ => exact .of_well (not_refused nofun) (well_climbUp hp hclimb)
  | build p here rest =>
    cases hneed
    obtain ⟨hp, hs⟩ := hs
    have hbuild : ∀ x ∈ rest, x ∈ ancestors p.path := fun x hx => hs x (List.mem_cons_of_mem _ hx)
    cases reply with
    | failed e =>
      cases e with
      | nodeExists x =>
        exact .of_well
          (not_refused_of_tolerated (.ancestor x hp.2 (hs here List.mem_cons_self)))
          (well_buildUp hp hbuild)
      | _ => exact .of_ill ⟨_, rfl, nofun⟩ (ill_fail hp.1)
    | _ => exact .of_well (not_refused nofun) (well_buildUp hp hbuild)
  | putLeaf p =>
    cases hneed
    cases reply with
    | failed e =>
      refine .of_ill ⟨e, rfl, fun ht => ?_⟩ (ill_fail hs.1)
      -- The node itself is none of its ancestors.
      cases ht with
      | ancestor x path above =>
        cases path.symm.trans hs.2
        exact Tree.Path.ne_of_mem_ancestors above rfl
    | _ => exact .of_well (not_refused nofun) well_finish
  | findLeaf name path =>
    cases hneed
    cases reply with
    | failed e => exact .of_ill ⟨e, rfl, nofun⟩ (ill_fail hs.1)
    | present there =>
      cases there with
      | true => exact .of_well (not_refused nofun) (well_goOn hs)
      | false => exact .of_well (not_refused nofun) well_finish
    | _ => exact .of_well (not_refused nofun) well_finish
  | removeLeaf name path =>
    cases hneed
    cases reply with
    | failed e =>
      cases e with
      | noNode x => exact .of_well (not_refused_of_tolerated (.leaf x hs.2)) well_finish
      | _ => exact .of_ill ⟨_, rfl, nofun⟩ (ill_fail hs.1)
    | _ => exact .of_well (not_refused nofun) well_finish
  | watch v l =>
    cases hneed
    cases reply with
    | failed e => exact .of_ill ⟨e, rfl, nofun⟩ (ill_depart (ill_fail hs))
    | _ => exact .of_well (not_refused nofun) (well_goOn hs)
  | read v =>
    cases hneed
    cases reply with
    | failed e => exact .of_ill ⟨e, rfl, nofun⟩ (ill_depart (ill_fail hs))
    | found data =>
      refine .of_well (not_refused nofun) ?_
      cases data with
      | none => exact well_depart well_finish
      | some bytes =>
        unfold answered
        dsimp only
        cases Payload.decode bytes with
        | ok data => exact well_goOn hs
        | error e => exact well_depart ⟨Core.counts_refl _, nofun⟩
    | _ => exact .of_well (not_refused nofun) (well_depart well_finish)
  | unwatch v l =>
    cases hneed
    cases reply with
    | failed e => exact .of_ill ⟨e, rfl, nofun⟩ (ill_depart (ill_fail hs))
    | _ => exact .of_well (not_refused nofun) (well_depart well_finish)
  | enter | hand | enterOut => exact nomatch hneed

/-- **The turn at a lock.** -/
theorem well_admitted (r : Nodes) (hs : Serves a c) {t : Nat} (hneed : c.need = .turn t) :
    workings.Well Serves a r.core (r.admitted c) := by
  cases c with
  | enter v =>
    obtain ⟨_, _, _, _, _, hroster, _, _⟩ := listenerFor_spec (r.core.attach v) v.key
    have hcounts : r.core.Counts a.operation 0 (listenerFor (r.core.attach v) v.key).1 :=
      Core.counts_of_failures (congrArg (·.kind) hroster) (congrArg (·.meter.failures) hroster)
    exact ⟨hcounts, fun _ hd => Option.some.inj hd ▸ hs⟩
  | enterOut v =>
    have hdetached : r.core.Counts a.operation 0 (r.core.detach v) := Core.counts_detach r.core v
    unfold admitted Core.forgetListener
    dsimp only
    split
    · exact ⟨hdetached.still rfl rfl, nofun⟩
    · cases (r.core.detach v).listeners.get? v.key with
      | none => exact ⟨hdetached.still rfl rfl, nofun⟩
      | some i => exact ⟨hdetached.still rfl rfl, fun _ hd => Option.some.inj hd ▸ hs⟩
  | _ => exact nomatch hneed

/-- **A lock is needed at the beginning of a call only.** -/
theorem need_of_resume {signal : Signal Reply} (h : c.Fits signal)
    (hd : (r.resume c signal).call = some d) (t : Nat) : d.need ≠ .turn t := by
  cases signal with
  | admitted =>
    obtain ⟨_, hneed⟩ := h
    cases c with
    | enter v =>
      obtain rfl := Option.some.inj hd
      exact nofun
    | enterOut v =>
      unfold resume admitted Core.forgetListener at hd
      dsimp only at hd
      split at hd
      · exact nomatch hd
      · cases hl : (r.core.detach v).listeners.get? v.key with
        | none =>
          rw [hl] at hd
          exact nomatch hd
        | some i =>
          rw [hl] at hd
          obtain rfl := Option.some.inj hd
          exact nofun
    | _ => exact nomatch hneed
  | handed =>
    obtain ⟨_, _, _, hneed⟩ := h
    cases c with
    | hand v data => exact nomatch hd
    | _ => exact nomatch hneed
  | answered reply =>
    obtain ⟨_, hneed⟩ := h
    cases c with
    | watch v l =>
      cases reply with
      | failed e => exact nomatch hd
      | _ =>
        obtain rfl := Option.some.inj hd
        exact nofun
    | read v =>
      cases reply with
      | found data =>
        cases data with
        | none => exact nomatch hd
        | some bytes =>
          unfold resume answered at hd
          dsimp only at hd
          cases hdecode : Payload.decode bytes with
          | ok data =>
            rw [hdecode] at hd
            obtain rfl := Option.some.inj hd
            exact nofun
          | error e =>
            rw [hdecode] at hd
            exact nomatch hd
      | _ => exact nomatch hd
    | unwatch v l => cases reply <;> exact nomatch hd
    | enter | hand | enterOut => exact nomatch hneed
    | _ =>
      -- A call that is not on a key goes on as one that is not on a key.
      obtain ⟨q, hq, _⟩ := need_of_plain ((plain_answered r rfl reply).2 d hd)
      rw [hq]
      exact nofun

theorem ready_start (h : r.core.locks.claims = []) (hc : (r.start a).call = some c) {t : Nat}
    (hneed : c.need = .turn t) : ((r.start a).registry.core.locks.poll t).holds t = true := by
  cases a with
  | register e | unregister e =>
    unfold start at hc
    dsimp only at hc
    cases hpath : e.path with
    | ok path =>
      rw [hpath] at hc
      obtain rfl := Option.some.inj hc
      exact nomatch hneed
    | error f =>
      rw [hpath] at hc
      exact nomatch hc
  | subscribe e x | unsubscribe e x =>
    unfold start at hc ⊢
    dsimp only at hc ⊢
    cases haddress : r.address e with
    | ok y =>
      rw [haddress] at hc
      obtain rfl := Option.some.inj hc
      obtain rfl := Need.turn.inj hneed
      exact Locks.holds_poll_request_of_idle h y.1
    | error f =>
      rw [haddress] at hc
      exact nomatch hc

theorem keeps : workings.Keeps Serves where
  start := judged_start
  admitted r hs hneed := well_admitted r hs hneed
  handed {_ c _ _ _} r hs hneed := by
    cases c with
    | hand v data => exact well_depart well_finish
    | _ => exact nomatch hneed
  answered r reply hs hneed := judged_answered r reply hs hneed
  ready h hc hneed := ready_start h hc hneed
  passed {_ _ signal _ t} h hd := need_of_resume (by cases signal <;> exact h) hd t

end Nodes

namespace Services

/-! ### Over a naming client -/

/-- A reply is an error.  None is tolerated. -/
def Refused (_ : Action) (_ : Naming.Request) (reply : Except Failure Unit) : Prop :=
  ∃ e, reply = .error e

def Named (kind : String) (a : Action) : Prop :=
  ∃ key, a.endpoint.key kind = .ok key

def Serves (a : Action) : Call → Prop
  | .register _ _ => a.operation = "register"
  | .deregister _ _ _ _ => a.operation = "unregister"
  | .enter _ | .subscribe _ _ => a.operation = "subscribe"
  | .enterOut _ | .unsubscribe _ _ => a.operation = "unsubscribe"

variable {a : Action} {r : Services} {k : Core} {c d : Call} {v : Visit} {st : Step Services Call}
  {operation name : String} {why : Failure}

/-- **Only a call that has got its lock goes on.** -/
theorem exists_of_resume {signal : Signal (Except Failure Unit)} (h : c.need.Fits signal)
    (hd : (r.resume c signal).call = some d) :
    (∃ q, d.need = .ask q) ∧ d.stepsLeft < c.stepsLeft := by
  cases signal with
  | admitted =>
    obtain ⟨_, hneed⟩ := h
    cases c with
    | enter v =>
      unfold resume admitted at hd
      dsimp only at hd
      split at hd
      · exact nomatch hd
      · obtain rfl := Option.some.inj hd
        exact ⟨⟨_, rfl⟩, Nat.one_lt_two⟩
    | enterOut v =>
      unfold resume admitted Core.forgetListener at hd
      dsimp only at hd
      split at hd
      · exact nomatch hd
      · cases hl : (r.core.detach v).listeners.get? v.key with
        | none =>
          rw [hl] at hd
          exact nomatch hd
        | some i =>
          rw [hl] at hd
          obtain rfl := Option.some.inj hd
          exact ⟨⟨_, rfl⟩, Nat.one_lt_two⟩
    | _ => exact nomatch hneed
  | answered reply =>
    obtain ⟨_, hneed⟩ := h
    cases c with
    | enter | enterOut => exact nomatch hneed
    | _ => cases reply <;> exact nomatch hd
  | handed =>
    obtain ⟨_, _, _, hneed⟩ := h
    cases c <;> exact nomatch hneed

def workings : Workings Services Call Naming.Request (Except Failure Unit) where
  core := core
  modify f r := { r with core := f r.core }
  core_modify _ _ := rfl
  start := start
  need := Call.need
  resume := resume
  left := Call.stepsLeft
  left_resume h hd := (exists_of_resume h hd).2
  Named k := Named k.kind
  Refused := Refused

/-! #### Steps -/

theorem well_goOn (h : Serves a c) : workings.Well Serves a r.core (r.goOn c) :=
  ⟨Core.counts_refl _, fun _ hd => Option.some.inj hd ▸ h⟩

theorem ill_fail (h : a.operation = operation) :
    workings.Ill a r.core (r.fail operation name why) :=
  ⟨h ▸ Core.counts_fail r.core operation name why.message, rfl⟩

theorem ill_depart (h : workings.Ill a k st) : workings.Ill a k (depart v st) :=
  ⟨h.counts.still rfl rfl, h.ended⟩

theorem judged_start (r : Services) (a : Action) :
    workings.Judged Serves a (¬ Named r.core.kind a) r.core (r.start a) := by
  have herror {f : Endpoint.Fault} (hkey : a.endpoint.key r.core.kind = .error f) :
      ¬ Named r.core.kind a := fun ⟨_, h⟩ => nomatch h.symm.trans hkey
  cases a with
  | register e | unregister e =>
    unfold start
    dsimp only
    cases hkey : e.key r.core.kind with
    | ok key => exact .of_well (not_not_intro ⟨key, hkey⟩) (well_goOn rfl)
    | error f => exact .of_ill (herror hkey) (ill_fail rfl)
  | subscribe e x | unsubscribe e x =>
    unfold start
    dsimp only
    cases hkey : e.key r.core.kind with
    | ok key =>
      refine .of_well (not_not_intro ⟨key, hkey⟩) ?_
      exact ⟨Core.counts_of_failures rfl rfl, fun _ hd => Option.some.inj hd ▸ rfl⟩
    | error f => exact .of_ill (herror hkey) (ill_fail rfl)

/-- **An answer of the client**: an error is always counted. -/
theorem judged_answered (r : Services) (reply : Except Failure Unit) (hs : Serves a c)
    {q : Naming.Request} (hneed : c.need = .ask q) :
    workings.Judged Serves a (Refused a q reply) r.core (r.answered c reply) := by
  cases reply with
  | ok _ =>
    refine .of_well (fun ⟨_, he⟩ => nomatch he) ?_
    cases c with
    | enter | enterOut => exact nomatch hneed
    | _ => exact ⟨Core.counts_of_failures rfl rfl, nofun⟩
  | error e =>
    refine .of_ill ⟨e, rfl⟩ ?_
    cases c with
    | register | deregister => exact ill_fail hs
    | subscribe v l =>
      -- The listener that is taken back is not counted.
      have htaken : (r.takeBack v.key l).core.roster = r.core.roster := by
        unfold takeBack
        split <;> rfl
      have hill : workings.Ill a (r.takeBack v.key l).core
          ((r.takeBack v.key l).fail "subscribe" v.key e) := ill_fail hs
      have hcounts := (Core.counts_of_failures (congrArg (·.kind) htaken)
        (congrArg (·.meter.failures) htaken)).trans hill.counts
      exact ill_depart ⟨hcounts, hill.ended⟩
    | unsubscribe v l => exact ill_depart (ill_fail hs)
    | enter | enterOut => exact nomatch hneed

/-- **The turn at a lock.** -/
theorem well_admitted (r : Services) (hs : Serves a c) {t : Nat} (hneed : c.need = .turn t) :
    workings.Well Serves a r.core (r.admitted c) := by
  cases c with
  | enter v =>
    unfold admitted
    dsimp only
    split
    · exact ⟨Core.counts_of_failures rfl rfl, nofun⟩
    · exact ⟨Core.counts_of_failures rfl rfl, fun _ hd => Option.some.inj hd ▸ hs⟩
  | enterOut v =>
    have hdetached : r.core.Counts a.operation 0 (r.core.detach v) := Core.counts_detach r.core v
    unfold admitted Core.forgetListener
    dsimp only
    split
    · exact ⟨hdetached.still rfl rfl, nofun⟩
    · cases (r.core.detach v).listeners.get? v.key with
      | none => exact ⟨hdetached.still rfl rfl, nofun⟩
      | some i => exact ⟨hdetached.still rfl rfl, fun _ hd => Option.some.inj hd ▸ hs⟩
  | _ => exact nomatch hneed

theorem ready_start (h : r.core.locks.claims = []) (hc : (r.start a).call = some c) {t : Nat}
    (hneed : c.need = .turn t) : ((r.start a).registry.core.locks.poll t).holds t = true := by
  cases a with
  | register e | unregister e =>
    unfold start at hc
    dsimp only at hc
    cases hkey : e.key r.core.kind with
    | ok key =>
      rw [hkey] at hc
      obtain rfl := Option.some.inj hc
      exact nomatch hneed
    | error f =>
      rw [hkey] at hc
      exact nomatch hc
  | subscribe e x | unsubscribe e x =>
    unfold start at hc ⊢
    dsimp only at hc ⊢
    cases hkey : e.key r.core.kind with
    | ok key =>
      rw [hkey] at hc
      obtain rfl := Option.some.inj hc
      obtain rfl := Need.turn.inj hneed
      exact Locks.holds_poll_request_of_idle h key
    | error f =>
      rw [hkey] at hc
      exact nomatch hc

theorem keeps : workings.Keeps Serves where
  start := judged_start
  admitted r hs hneed := well_admitted r hs hneed
  handed {_ c _ _ _} _ _ hneed := by cases c <;> exact nomatch hneed
  answered r reply hs hneed := judged_answered r reply hs hneed
  ready h hc hneed := ready_start h hc hneed
  passed {_ _ _ d _} h hd := by
    obtain ⟨q, hq⟩ := (exists_of_resume h hd).1
    show d.need ≠ _
    rw [hq]
    exact nofun

end Services

/-! ### Both kinds of registry -/

/-- **Failures are counted once.**  Whatever is registered, unregistered, subscribed to or
unsubscribed from, and whatever the client answers: a call that runs alone returns, and when it has
returned its failure is counted, if it has failed. -/
theorem counted_once :
    (∀ (r : Nodes) (a : Action) (w : Surroundings Request Reply), r.core.locks.claims = [] →
      (∃ n, (Nodes.workings.after w r a n).call = none) ∧
        ∀ n, (Nodes.workings.after w r a n).call = none →
          Nodes.workings.Settled r a (Nodes.workings.after w r a n)) ∧
    ∀ (r : Services) (a : Action) (w : Surroundings Naming.Request (Except Failure Unit)),
      r.core.locks.claims = [] →
      (∃ n, (Services.workings.after w r a n).call = none) ∧
        ∀ n, (Services.workings.after w r a n).call = none →
          Services.workings.Settled r a (Services.workings.after w r a n) :=
  ⟨fun _ a w h => ⟨Workings.exists_returned Nodes.keeps w h a,
      fun _ => Workings.settled_of_returned Nodes.keeps h⟩,
    fun _ a w h => ⟨Workings.exists_returned Services.keeps w h a,
      fun _ => Workings.settled_of_returned Services.keeps h⟩⟩

/-- Others delete the node and create its parent and it while it is registered, and a consumer that
is told of something panics. -/
def contested : Surroundings Request Reply where
  reply _ q := match q with
    | .check p => .present (p == "/a/b")
    | .delete p => .failed (.noNode p)
    | .create p _ _ => .failed (.nodeExists p)
    | _ => .done
  news _ _ := [("k", ∅)]
  conduct _ _ _ := .panicked .other

def unreachable : Surroundings Naming.Request (Except Failure Unit) where
  reply _ _ := .error (.backend "no server")
  news _ _ := []
  conduct _ _ _ := .completed

def spot : Endpoint :=
  (Endpoint.ofHost "h" 1).addSegments ["a", "b"]

def staffed : Nodes :=
  { Nodes.new 0 1 with core.roster := (Roster.ofKind "zookeeper").attach "k" "c" }

/-- A registration that the others get in the way of. -/
def thwarted : Solo Nodes Nodes.Call Request Reply :=
  Nodes.workings.after contested staffed (.register spot ∅ true) 5

/-- A subscription that does not get through. -/
def unheard : Solo Services Services.Call Naming.Request (Except Failure Unit) :=
  Services.workings.after unreachable (.new 0) (.subscribe spot "c") 2

/-- That the node is gone and its parent has come is no failure, but that it has come itself is
one. -/
theorem counted_once_of_contested :
    (staffed.core.locks.claims = [] ∧ thwarted.call = none ∧
      thwarted.asked = [(.check "/a/b", .present true), (.delete "/a/b", .failed (.noNode "/a/b")),
        (.check "/a", .present false), (.create "/a" [] .persistent, .failed (.nodeExists "/a")),
        (.create "/a/b" (Payload.encode ∅) .ephemeral, .failed (.nodeExists "/a/b"))] ∧
      Nodes.workings.failures staffed "zookeeper" "register" = 0 ∧
      Nodes.workings.failures thwarted.registry "zookeeper" "register" = 1 ∧
      Nodes.workings.Settled staffed (.register spot ∅ true) thwarted) ∧
    unheard.call = none ∧
      Services.workings.failures unheard.registry "nacos" "subscribe" = 1 ∧
      Services.workings.Settled (.new 0) (.subscribe spot "c") unheard := by
  have hthwarted : thwarted.call = none := by decide
  have hunheard : unheard.call = none := by decide
  obtain ⟨hnodes, hservices⟩ := counted_once
  refine ⟨⟨rfl, hthwarted, by decide, by decide, by decide, ?_⟩, hunheard, by decide, ?_⟩
  · exact (hnodes staffed _ contested rfl).2 5 hthwarted
  · exact (hservices (.new 0) _ unreachable rfl).2 2 hunheard

end Discovery.Registry
