import Discovery.Proofs.Registry.LostWatches
import Discovery.Proofs.Registry.Serial

/-!
# A listener stays while it is needed

As long as a key has consumers, the registry keeps the listener of the key, and no call takes the
watch for it off the tree, on whatever path it is.  So once the call that subscribes a consumer has
had a path watched, the path stays watched for the consumer's key until the consumer is detached.
No use is made here of the locks, nor of a place for each key.

* `Steady`: what any run keeps; `Steady.watching_step`: no move ends the watching of a path for a
  key with consumers.
* `Subscription`: how far a call that subscribes has come in a run, and whether its consumer has
  been attached since.
* `Follows.watching`: while a consumer is subscribed to an endpoint, its path is watched.
-/

namespace Discovery.Registry

theorem Move.exists_placed (m : Move) : ∃ place, m.Placed place := by
  cases m with
  | start n a =>
    refine ⟨fun _ => a.endpoint.path.toOption.getD "", fun k p _ hp => ?_⟩
    rw [hp]
    rfl
  | _ => exact ⟨id, trivial⟩

namespace Interplay

variable {place : String → String} {s₀ s s' : Interplay} {m : Move} {n i : Nat} {v : Visit}
  {l : Listener} {k p : String} {e : Endpoint} {c : Consumer}

/-! ### What moves do to listeners -/

/-- **What a move may do to the listeners**: make one for a key that has none, or forget that of a
key that has no consumers, whose watch some call may then be about to release. -/
inductive Relisted (s s' : Interplay) : Prop where
  | kept (listeners : s'.core.listeners = s.core.listeners)
      (calls : ∀ n v l, s'.calls n = some (.unwatch v l) → s.calls n = some (.unwatch v l))
  | made (k : String) (unlisted : s.core.listeners.get? k = none)
      (listeners : s'.core.listeners = s.core.listeners.insert k s.core.nextSerial)
      (calls : ∀ n v l, s'.calls n = some (.unwatch v l) → s.calls n = some (.unwatch v l))
  | forgotten (k : String) (unused : s'.consumers k = [])
      (listeners : s'.core.listeners = s.core.listeners.erase k)
      (calls : ∀ n v l, s'.calls n = some (.unwatch v l) →
        s.calls n = some (.unwatch v l) ∨ v.key = k)

theorem relisted_enter (s : Interplay) (t n : Nat) (v : Visit) :
    s.Relisted ((s.look t).letIn n (.enter v)) := by
  have hcore : ((s.look t).letIn n (.enter v)).core =
      (Nodes.listenerFor ((s.look t).core.attach v) v.key).1 := rfl
  unfold Nodes.listenerFor at hcore
  cases hi : s.core.listeners.get? v.key with
  | some i =>
    rw [show ((s.look t).core.attach v).listeners.get? v.key = some i from hi] at hcore
    exact .kept (by rw [hcore]; rfl) (call_of_take rfl)
  | none =>
    rw [show ((s.look t).core.attach v).listeners.get? v.key = none from hi] at hcore
    exact .made v.key hi (by rw [hcore]; rfl) (call_of_take rfl)

theorem relisted_enterOut (s : Interplay) (t n : Nat) (v : Visit) :
    s.Relisted ((s.look t).letIn n (.enterOut v)) := by
  unfold letIn Nodes.admitted
  dsimp only
  split
  · exact .kept rfl (call_of_take rfl)
  · next hcount =>
    unfold Core.forgetListener
    cases hi : ((s.look t).core.detach v).listeners.get? v.key with
    | none => exact .kept rfl (call_of_take rfl)
    | some i =>
      refine .forgotten v.key ((count_eq_zero_iff _ _).1 (Nat.eq_zero_of_not_pos hcount)) rfl
        fun n' w l hn => ?_
      change Function.update s.calls n (some (.unwatch v _)) n' = _ at hn
      rw [Function.update_apply] at hn
      split at hn
      · cases hn
        exact .inr rfl
      · exact .inl hn

theorem Effect.relisted (he : Effect place s m s') : s.Relisted s' := by
  cases he with
  | beside hb =>
    obtain ⟨m, hm⟩ := hb.registry
    exact .kept (by rw [core, hm]; rfl) fun n v l => (hb.calls n _ v rfl).1
  | look => exact .kept rfl fun _ _ _ hn => hn
  | @enter n v => exact relisted_enter s v.ticket n v
  | @enterOut n v => exact relisted_enterOut s v.ticket n v
  | _ => exact .kept rfl (call_of_take rfl)

theorem Relisted.listener_stays (h : s.Relisted s') (hi : s.core.listeners.get? k = some i)
    (hk : s'.consumers k ≠ []) : s'.core.listeners.get? k = some i := by
  cases h with
  | kept listeners => rwa [listeners]
  | made a unlisted listeners =>
    have hne : k ≠ a := by
      rintro rfl
      exact nomatch unlisted.symm.trans hi
    rwa [listeners, Table.get?_insert_of_ne _ _ hne]
  | forgotten a unused listeners =>
    have hne : k ≠ a := by
      rintro rfl
      exact hk unused
    rwa [listeners, Table.get?_erase_of_ne _ hne]

theorem Relisted.listener_cases (h : s.Relisted s') (hi : s'.core.listeners.get? k = some i) :
    s.core.listeners.get? k = some i ∨ i = s.core.nextSerial := by
  cases h with
  | kept listeners => exact .inl (listeners ▸ hi)
  | made a unlisted listeners =>
    rw [listeners, Table.get?_insert] at hi
    split at hi
    · exact .inr (Option.some.inj hi).symm
    · exact .inl hi
  | forgotten a unused listeners =>
    rw [listeners, Table.get?_erase] at hi
    split at hi
    · exact nomatch hi
    · exact .inl hi

theorem Relisted.unwatch_cases (h : s.Relisted s') (hn : s'.calls n = some (.unwatch v l)) :
    s.calls n = some (.unwatch v l) ∨ s'.core.listeners.get? v.key = none := by
  cases h with
  | kept listeners calls => exact .inl (calls n v l hn)
  | made k unlisted listeners calls => exact .inl (calls n v l hn)
  | forgotten k unused listeners calls =>
    refine (calls n v l hn).imp id fun hv => ?_
    rw [listeners, hv]
    exact Table.get?_erase_self _ _

/-! ### What moves do to watches -/

theorem Effect.watch_cases (he : Effect place s m s') {w : Tree.Watch}
    (hw : w ∈ s'.watchesFor k p) :
    w ∈ s.watchesFor k p ∨ w.session = s.registry.session := by
  cases he with
  | beside hb => exact .inl (hb.watches k p ▸ hw)
  | enter | enterOut =>
    rw [watchesFor_letIn] at hw
    exact .inl hw
  | @watch n v l =>
    rw [watchesFor_watch] at hw
    split at hw
    · next hp =>
      rw [hp.1]
      refine (List.mem_append.1 hw).imp id fun hnew => ?_
      split at hnew
      · exact (List.mem_singleton.1 hnew) ▸ rfl
      · exact nomatch hnew
    · exact .inl hw
  | @unwatch n v l m =>
    change w ∈ (s.unwatch v l).watchesFor k p at hw
    rw [watchesFor_unwatch] at hw
    split at hw
    · exact .inl (List.mem_filter.1 hw).1
    · exact .inl hw
  | _ => exact .inl hw

theorem Effect.watch_stays (he : Effect place s m s') {w : Tree.Watch}
    (hw : w ∈ s.watchesFor k p) (hne : ∀ n v, s.calls n ≠ some (.unwatch v w.listener)) :
    w ∈ s'.watchesFor k p := by
  cases he with
  | beside hb => exact (hb.watches k p).symm ▸ hw
  | enter | enterOut =>
    rw [watchesFor_letIn]
    exact hw
  | @watch n v l =>
    rw [watchesFor_watch]
    split
    · next hp => exact List.mem_append_left _ (hp.1 ▸ hw)
    · exact hw
  | @unwatch n v l m hc =>
    change w ∈ (s.unwatch v l).watchesFor k p
    rw [watchesFor_unwatch]
    split
    · refine List.mem_filter.2 ⟨hw, bne_iff_ne.2 ?_⟩
      rintro rfl
      exact hne n v hc
    · exact hw
  | _ => exact hw

/-! ### What any run keeps -/

theorem Effect.kind (he : Effect place s m s') : s'.core.kind = s.core.kind := by
  cases he with
  | beside hb =>
    obtain ⟨m, hm⟩ := hb.registry
    rw [core, hm]
    rfl
  | @enter n v =>
    obtain ⟨_, _, _, _, _, hroster, _⟩ :=
      Nodes.listenerFor_spec ((s.look v.ticket).core.attach v) v.key
    show (Nodes.listenerFor ((s.look v.ticket).core.attach v) v.key).1.roster.kind = _
    rw [hroster]
    rfl
  | @enterOut n v =>
    unfold letIn Nodes.admitted Core.forgetListener
    dsimp only
    split
    · exact Roster.kind_detach ..
    · cases ((s.look v.ticket).core.detach v).listeners.get? v.key <;> exact Roster.kind_detach ..
  | _ => rfl

theorem Effect.isClosed (he : Effect place s m s') :
    s'.server.isClosed s.registry.session = s.server.isClosed s.registry.session := by
  cases he with
  | beside hb => exact hb.isClosed
  | _ => rfl

theorem Grounded.effect (h : s.Grounded) (he : Effect place s m s') : s'.Grounded where
  kind := he.kind.trans h.kind
  isOpen := by
    rw [he.registry.2]
    exact he.isClosed.trans h.isOpen
  own k p w hw := by
    rw [he.registry.2]
    exact (he.watch_cases hw).elim (h.own k p w) id

/-- **What any run keeps**: the registry's own watches, the serial numbers of its listeners, and
that no call is about to release the watch of a listener that the registry keeps. -/
structure Steady (s : Interplay) : Prop where
  grounded : s.Grounded
  numbered : s.Numbered []
  leaving : ∀ n v l, s.calls n = some (.unwatch v l) →
    ∀ i, s.core.listeners.get? v.key = some i → l ≠ s.core.listener v.key i

theorem steady_begin {conduct : Conduct} {v : Tree.Server} {id : Nat} {session : Tree.SessionId}
    (hopen : v.isClosed session = false)
    (hnew : ∀ p, ∀ w ∈ v.tree.watchesAt p, w.listener.isOf id = false) :
    (begin conduct v id session).Steady where
  grounded :=
    have h : (begin conduct v id session).Orderly (fun k => k) :=
      orderly_begin hopen hnew
    h.grounded
  numbered := ⟨nofun, nofun, nofun⟩
  leaving := nofun

theorem Steady.effect (h : s.Steady) (he : Effect place s m s') : s'.Steady where
  grounded := h.grounded.effect he
  numbered := h.numbered.effect he
  leaving n v l hn i hi := by
    rw [listener_congr he.registry.1]
    rcases he.relisted.unwatch_cases hn with hold | hnone
    · rcases he.relisted.listener_cases hi with hi | rfl
      · exact h.leaving n v l hold i hi
      · -- the listener that the call takes down has an older serial number
        obtain ⟨j, hj, rfl⟩ := h.numbered.leaving n v l hold
        exact fun heq => hj.ne (Core.listener_inj heq).2
    · exact nomatch hnone.symm.trans hi

theorem Steady.step_effect (h : s.Steady) (hs : s.step m = some s') :
    ∃ place, Effect place s m s' := by
  obtain ⟨place, hm⟩ := m.exists_placed
  exact ⟨place, h.grounded.step_effect hm hs⟩

theorem Steady.step (h : s.Steady) (hs : s.step m = some s') : s'.Steady := by
  obtain ⟨place, he⟩ := h.step_effect hs
  exact h.effect he

theorem Steady.run (h : s.Steady) {ms : List Move} (hs : s.run ms = some s') : s'.Steady :=
  (throughout_true ms s).keeps (fun h _ _ ht => h.step ht) h (fun _ _ => trivial) hs

/-! ### Paths that are watched -/

/-- The path is watched by the listener that the registry keeps for the key. -/
def Watching (s : Interplay) (k p : String) : Prop :=
  ∃ i, s.core.listeners.get? k = some i ∧
    ∃ w ∈ s.watchesFor k p, w.listener = s.core.listener k i

/-- **No move ends the watching of a path** for a key with consumers. -/
theorem Steady.watching_step (h : s.Steady) (hs : s.step m = some s') (hw : s.Watching k p)
    (hk : s'.consumers k ≠ []) : s'.Watching k p := by
  obtain ⟨place, he⟩ := h.step_effect hs
  obtain ⟨i, hi, w, hw, hl⟩ := hw
  refine ⟨i, he.relisted.listener_stays hi hk, w, he.watch_stays hw fun n v hn => ?_, ?_⟩
  · obtain ⟨j, _, hj⟩ := h.numbered.leaving n v _ hn
    obtain ⟨rfl, rfl⟩ := Core.listener_inj (hl.symm.trans hj)
    exact h.leaving n v _ hn i hi hl
  · rw [listener_congr he.registry.1]
    exact hl

/-- **A call has a path watched** by the listener of its key. -/
theorem Steady.watching_of_go (h : s.Steady) (hc : s.calls n = some (.watch v l))
    (hi : s.core.listeners.get? v.key = some i) (hl : l = s.core.listener v.key i)
    (hs : s.step (.go n) = some s') : s'.Watching v.key v.path := by
  obtain rfl : s.watch n v l = s' := by
    rw [← h.grounded.go_watch]
    exact Option.some.inj ((step_go hc).symm.trans hs)
  have hfor : l.isFor s.core.id v.key = true := by
    rw [hl, isFor_listener]
    exact beq_self_eq_true v.key
  refine ⟨i, hi, ?_⟩
  by_cases hany : (s.server.tree.watchesAt v.path).any (·.listener == l) = true
  · -- the listener was on the path before, and stays there
    obtain ⟨w, hw, hwl⟩ := List.any_eq_true.1 hany
    refine ⟨w, ?_, (eq_of_beq hwl).trans hl⟩
    rw [watchesFor_watch, if_neg fun hp => hp.2 hany]
    exact List.mem_filter.2 ⟨hw, (eq_of_beq hwl).symm ▸ hfor⟩
  · refine ⟨⟨s.registry.session, l⟩, ?_, hl⟩
    rw [watchesFor_watch, if_pos ⟨rfl, hany⟩, if_pos hfor]
    exact List.mem_append_right _ List.mem_cons_self

/-! ### Subscriptions -/

/-- The visit is that of a consumer to an endpoint. -/
structure Visits (e : Endpoint) (c : Consumer) (v : Visit) : Prop where
  key : e.key Nodes.kind = .ok v.key
  path : e.path = .ok v.path
  consumer : v.consumer = c

theorem Grounded.visits_of_start (h : s.Grounded)
    (hs : s.step (.start n (.subscribe e c)) = some s') (hn : s'.calls n = some (.enter v)) :
    Visits e c v := by
  have hfree : s.calls n = none := by
    cases hc : s.calls n with
    | none => rfl
    | some d =>
      simp only [Interplay.step, hc, reduceCtorEq] at hs
  obtain rfl := Option.some.inj ((step_start hfree).symm.trans hs)
  change Function.update s.calls n (s.registry.start (.subscribe e c)).call n = _ at hn
  rw [Function.update_self] at hn
  cases haddress : s.registry.address e with
  | error f =>
    unfold Nodes.start at hn
    simp only [haddress, Nodes.fail, reduceCtorEq] at hn
  | ok x =>
    obtain ⟨k, p⟩ := x
    rw [Nodes.start_subscribe _ _ haddress] at hn
    cases hn
    obtain ⟨hk, hp⟩ := Nodes.address_eq_ok_iff.1 haddress
    exact ⟨h.kind ▸ hk, hp, rfl⟩

/-- How far a call that subscribes has come: it lines up for its key, it has its turn and is to
have its path watched, or it has had the path watched. -/
inductive Phase where
  | lined (v : Visit)
  | inside (v : Visit) (l : Listener)
  | standing (v : Visit)

def Phase.visit : Phase → Visit
  | .lined v | .inside v _ | .standing v => v

/-- **How far the call that subscribes a consumer has come** in a run, where the consumer has been
attached to the key ever since the call had its turn. -/
inductive Subscription (s₀ : Interplay) (e : Endpoint) (c : Consumer) (n : Nat) :
    Phase → List Move → Interplay → Prop where
  /-- The call begins. -/
  | start {ms : List Move} {s s' : Interplay} {v : Visit} (run : s₀.run ms = some s)
      (step : s.step (.start n (.subscribe e c)) = some s')
      (call : s'.calls n = some (.enter v)) :
      Subscription s₀ e c n (.lined v) (ms ++ [.start n (.subscribe e c)]) s'
  /-- It waits for its turn. -/
  | wait {ms : List Move} {s s' : Interplay} {m : Move} {v : Visit}
      (before : Subscription s₀ e c n (.lined v) ms s) (step : s.step m = some s')
      (call : s'.calls n = some (.enter v)) : Subscription s₀ e c n (.lined v) (ms ++ [m]) s'
  /-- It has its turn. -/
  | enter {ms : List Move} {s s' : Interplay} {v : Visit} {l : Listener}
      (before : Subscription s₀ e c n (.lined v) ms s) (step : s.step (.go n) = some s')
      (call : s'.calls n = some (.watch v l)) :
      Subscription s₀ e c n (.inside v l) (ms ++ [.go n]) s'
  /-- It is to have its path watched. -/
  | stay {ms : List Move} {s s' : Interplay} {m : Move} {v : Visit} {l : Listener}
      (before : Subscription s₀ e c n (.inside v l) ms s) (step : s.step m = some s')
      (call : s'.calls n = some (.watch v l)) (attached : c ∈ s'.consumers v.key) :
      Subscription s₀ e c n (.inside v l) (ms ++ [m]) s'
  /-- It has its path watched. -/
  | watch {ms : List Move} {s s' : Interplay} {v : Visit} {l : Listener}
      (before : Subscription s₀ e c n (.inside v l) ms s) (step : s.step (.go n) = some s') :
      Subscription s₀ e c n (.standing v) (ms ++ [.go n]) s'
  /-- Something else happens. -/
  | keep {ms : List Move} {s s' : Interplay} {m : Move} {v : Visit}
      (before : Subscription s₀ e c n (.standing v) ms s) (step : s.step m = some s')
      (attached : c ∈ s'.consumers v.key) : Subscription s₀ e c n (.standing v) (ms ++ [m]) s'

def Phase.Holds (n : Nat) (s : Interplay) : Phase → Prop
  | .lined v => s.calls n = some (.enter v)
  | .inside v l => s.calls n = some (.watch v l) ∧ s.core.Phase (.watch v l)
  | .standing v => v.consumer ∈ s.consumers v.key ∧ s.Watching v.key v.path

/-- **A call that has its turn** attaches its consumer, and is given the listener of its key. -/
theorem phase_of_enter (hc : s.calls n = some (.enter v)) (hs : s.step (.go n) = some s')
    (hn : s'.calls n = some (.watch v l)) : s'.core.Phase (.watch v l) := by
  obtain rfl := Option.some.inj ((step_go hc).symm.trans hs)
  rw [go_look rfl] at hn ⊢
  by_cases hh : (s.look v.ticket).core.locks.holds v.ticket = true
  · rw [if_pos hh] at hn ⊢
    obtain ⟨i, hl, hi, _, _, _, _, hid⟩ :=
      Nodes.listenerFor_spec ((s.look v.ticket).core.attach v) v.key
    change Function.update s.calls n (some (.watch v (Nodes.listenerFor _ v.key).2)) n = _ at hn
    rw [Function.update_self] at hn
    cases hn
    refine ⟨?_, i, hi, ?_⟩
    · have hcons := consumers_enter (s.look v.ticket) n v v.key
      rw [if_pos rfl] at hcons
      refine (congrArg (v.consumer ∈ ·) hcons).mpr ?_
      split
      · next hmem => exact List.contains_iff_mem.1 hmem
      · exact List.mem_append_right _ List.mem_cons_self
    · rw [hl]
      exact (congrArg (Listener.forwarder · v.key i) hid).symm
  · rw [if_neg hh] at hn
    exact nomatch hc.symm.trans hn

theorem run_concat {ms : List Move} (hrun : s₀.run ms = some s) (hs : s.step m = some s') :
    s₀.run (ms ++ [m]) = some s' := by
  rw [run_append, hrun, Option.bind_some, run_cons, hs]
  rfl

/-- **What holds while a consumer subscribes**: the call is about its endpoint, and stands where
its phase says. -/
theorem Subscription.spec {ph : Phase} {ms : List Move} (h₀ : s₀.Steady)
    (h : Subscription s₀ e c n ph ms s) :
    s₀.run ms = some s ∧ s.Steady ∧ Visits e c ph.visit ∧ ph.Holds n s := by
  induction h with
  | start run step call =>
    have h := h₀.run run
    exact ⟨run_concat run step, h.step step, h.grounded.visits_of_start step call, call⟩
  | wait before step call ih =>
    obtain ⟨hrun, h, hv, _⟩ := ih
    exact ⟨run_concat hrun step, h.step step, hv, call⟩
  | enter before step call ih =>
    obtain ⟨hrun, h, hv, hcall⟩ := ih
    exact ⟨run_concat hrun step, h.step step, hv, call, phase_of_enter hcall step call⟩
  | @stay ms s s' m v l before step call attached ih =>
    obtain ⟨hrun, h, hv, _, _, i, hi, hl⟩ := ih
    obtain ⟨place, he⟩ := h.step_effect step
    have hmem : v.consumer ∈ s'.consumers v.key := hv.consumer.symm ▸ attached
    refine ⟨run_concat hrun step, h.step step, hv, call, hmem, i,
      he.relisted.listener_stays hi (List.ne_nil_of_mem hmem), ?_⟩
    exact hl.trans (listener_congr he.registry.1 v.key i).symm
  | @watch ms s s' v l before step ih =>
    obtain ⟨hrun, h, hv, hcall, hmem, i, hi, hl⟩ := ih
    have hgo : s.watch n v l = s' := by
      rw [← h.grounded.go_watch]
      exact Option.some.inj ((step_go hcall).symm.trans step)
    exact ⟨run_concat hrun step, h.step step, hv, hgo ▸ hmem,
      h.watching_of_go hcall hi hl step⟩
  | keep before step attached ih =>
    obtain ⟨hrun, h, hv, _, hw⟩ := ih
    have hmem := hv.consumer.symm ▸ attached
    exact ⟨run_concat hrun step, h.step step, hv, hmem,
      h.watching_step step hw (List.ne_nil_of_mem hmem)⟩

/-- In a run a call has subscribed a consumer to an endpoint, and the consumer has not been detached
since. -/
def Follows (s₀ : Interplay) (e : Endpoint) (c : Consumer) (ms : List Move) (s : Interplay) :
    Prop :=
  ∃ n v, Subscription s₀ e c n (.standing v) ms s

/-- **While a consumer is subscribed to an endpoint, its path is watched.** -/
theorem Follows.watching {ms : List Move} (h₀ : s₀.Steady) (h : s₀.Follows e c ms s) :
    ∃ k p, e.key Nodes.kind = .ok k ∧ e.path = .ok p ∧ c ∈ s.consumers k ∧ s.Watching k p := by
  obtain ⟨n, v, h⟩ := h
  obtain ⟨_, _, hv, hmem, hw⟩ := h.spec h₀
  exact ⟨v.key, v.path, hv.key, hv.path, hv.consumer ▸ hmem, hw⟩

end Interplay

end Discovery.Registry
