import Discovery.Proofs.Services.Interplay

/-!
# What a move comes to over a naming client

`Effect p s m s'` lists what the move `m` may make of the interplay `s`, up to what the registry
counts: the client may be used by others or by calls that register and deregister, which leaves the
keys alone (`Beside`), and the calls that attach and detach consumers take one of their steps.

* `step_effect`: each move has one of these effects.
-/

namespace Discovery.Registry.Services.Interplay

open Naming (Provider)

variable {κ ω : Type} {p : Provider κ ω} {s s' : Interplay κ} {n : Nat} {c : Call} {v : Visit}
  {l : Listener} {k : String}

/-! ### Listeners at a service -/

theorem isOf_listener (k : Core) (key : String) (i : Nat) :
    (k.listener key i).isOf k.id = true :=
  beq_self_eq_true k.id

theorem listenersAt_congr {client : κ} (h : p.audience client = p.audience s.client) (k : String) :
    ({ s with client } : Interplay κ).listenersAt p k = s.listenersAt p k := by
  unfold listenersAt
  rw [h]

theorem listenersAt_request {w : ω} {q : Naming.Request}
    (hq : ∀ l, q.listener? = some l → l.isOf s.core.id = false) (k : String) :
    ({ s with client := (p.answer s.client w q).1 } : Interplay κ).listenersAt p k =
      s.listenersAt p k := by
  cases q with
  | register service i => exact listenersAt_congr (p.audience_other _ _ _ rfl) k
  | deregister service ip port ephemeral => exact listenersAt_congr (p.audience_other _ _ _ rfl) k
  | subscribe service l =>
    have hl : ¬ l.isOf s.core.id = true := Bool.eq_false_iff.1 (hq l rfl)
    show ((p.audience _).of k).filter _ = ((p.audience s.client).of k).filter _
    rw [p.audience_subscribe, Naming.Audience.of_add]
    split
    · next hk =>
      subst hk
      split
      · rfl
      · rw [List.filter_append, List.filter_cons_of_neg hl, List.filter_nil, List.append_nil]
    · rfl
  | unsubscribe service l =>
    show ((p.audience _).of k).filter _ = ((p.audience s.client).of k).filter _
    rw [p.audience_unsubscribe, Naming.Audience.of_remove]
    split
    · next hk =>
      subst hk
      rw [List.filter_filter]
      refine List.filter_congr fun x _ => ?_
      by_cases hx : x = l
      · rw [hx, hq l rfl, Bool.false_and]
      · rw [bne_iff_ne.2 hx, Bool.and_true]
    · rfl

/-! ### Besides the keys -/

/-- Something has happened that leaves the keys alone. -/
structure Beside (p : Provider κ ω) (s s' : Interplay κ) : Prop where
  core : ∃ m, s'.core = (s.registry.withMeter m).core
  calls : ∀ n c v, c.visit? = some v → (s'.calls n = some c ↔ s.calls n = some c)
  listeners : ∀ k, s'.listenersAt p k = s.listenersAt p k
  lost : s'.lost = s.lost

theorem beside_client {client : κ}
    (h : ∀ k, ({ s with client } : Interplay κ).listenersAt p k = s.listenersAt p k) :
    s.Beside p { s with client } :=
  ⟨⟨s.core.roster.meter, rfl⟩, fun _ _ _ _ => .rfl, h, rfl⟩

theorem Beside.take (h : s.Beside p s') {st : Step Services Call} (hst : s'.registry.Plain st)
    (hn : ∀ c, s.calls n = some c → c.visit? = none) : s.Beside p (s'.take n st) := by
  obtain ⟨⟨m, hm⟩, hc⟩ := hst
  obtain ⟨m', hm'⟩ := h.core
  have hcore : (s'.take n st).core = (s.registry.withMeter m).core := by
    show st.registry.core = _
    rw [hm]
    show { s'.core with roster.meter := m } = _
    rw [hm']
    rfl
  refine ⟨⟨m, hcore⟩, fun n' c v hv => ?_, fun k => ?_, h.lost⟩
  · show Function.update s'.calls n st.call n' = some c ↔ _
    rw [Function.update_apply]
    split
    · next hnn =>
      subst hnn
      refine ⟨fun he => ?_, fun he => ?_⟩
      · rw [hc c he] at hv
        exact nomatch hv
      · rw [hn c he] at hv
        exact nomatch hv
    · exact h.calls n' c v hv
  · rw [← h.listeners k]
    unfold listenersAt
    rw [hcore, hm']
    rfl

theorem beside_refl (s : Interplay κ) : s.Beside p s :=
  ⟨⟨s.core.roster.meter, rfl⟩, fun _ _ _ _ => .rfl, fun _ => rfl, rfl⟩

/-! ### The steps of a call on a key -/

/-- A call begins: it lines up for its key. -/
def line (s : Interplay κ) (n : Nat) (call : Visit → Call) (k : String) (c : Consumer) :
    Interplay κ :=
  s.take n ({ s.registry with core := (s.core.lineUp k "" c).1 }.goOn
    (call (s.core.lineUp k "" c).2))

def attached (s : Interplay κ) (v : Visit) : Interplay κ :=
  { s with registry.core := s.core.attach v }

def detached (s : Interplay κ) (v : Visit) : Interplay κ :=
  { s with registry.core := s.core.detach v }

/-- A call has a listener made, and goes on to put it up. -/
def make (s : Interplay κ) (n : Nat) (v : Visit) : Interplay κ :=
  s.take n ({ s.registry with core := (s.core.makeListener v.key).1 }.goOn
    (.subscribe v (s.core.listener v.key s.core.nextSerial)))

def forgotten (s : Interplay κ) (k : String) : Interplay κ :=
  { s with registry.core.listeners := s.core.listeners.erase k }

/-- A call has the listener forgotten, and goes on to take it down. -/
def forget (s : Interplay κ) (n : Nat) (v : Visit) (i : Nat) : Interplay κ :=
  (s.forgotten v.key).take n ((s.forgotten v.key).registry.goOn
    (.unsubscribe v (s.core.listener v.key i)))

def takenBack (s : Interplay κ) (v : Visit) (l : Listener) : Interplay κ :=
  { s with registry := s.registry.takeBack v.key l }

theorem takenBack_eq {i : Nat} (hi : s.core.listeners.get? v.key = some i)
    (hl : l = s.core.listener v.key i) : s.takenBack v l = s.forgotten v.key := by
  unfold takenBack takeBack
  rw [hi, Option.map_some, hl, if_pos rfl]
  rfl

/-- A call is over, and its lock is free again; something may have been counted. -/
def leave (s : Interplay κ) (n : Nat) (v : Visit) (m : Meter) : Interplay κ :=
  s.take n (depart v (s.registry.withMeter m).finish)

/-- **What a move comes to.** -/
inductive Effect (p : Provider κ ω) (s : Interplay κ) : Move κ ω → Interplay κ → Prop where
  /-- The keys are left alone. -/
  | beside {m : Move κ ω} {s' : Interplay κ} (h : s.Beside p s') : Effect p s m s'
  /-- A call lines up for its key. -/
  | line {n : Nat} {a : Action} {call : Visit → Call} {k : String} {c : Consumer}
      (hfree : s.calls n = none) (hcall : call = .enter ∨ call = .enterOut) :
      Effect p s (.start n a) (s.line n call k c)
  /-- A call looks whether it has its lock. -/
  | look {n t : Nat} {w : ω} : Effect p s (.go n w) (s.look t)
  /-- A call has its lock and attaches its consumer; the key has a listener. -/
  | join {n : Nat} {w : ω} {v : Visit} {m : Meter} (hc : s.calls n = some (.enter v))
      (hh : (s.look v.ticket).core.locks.holds v.ticket = true)
      (hl : s.core.hasListener v.key = true) :
      Effect p s (.go n w) (((s.look v.ticket).attached v).leave n v m)
  /-- A call has its lock and attaches its consumer; a listener is made. -/
  | make {n : Nat} {w : ω} {v : Visit} (hc : s.calls n = some (.enter v))
      (hh : (s.look v.ticket).core.locks.holds v.ticket = true)
      (hl : s.core.listeners.get? v.key = none) :
      Effect p s (.go n w) (((s.look v.ticket).attached v).make n v)
  /-- A call has its lock and detaches its consumer; there is no listener to take down. -/
  | part {n : Nat} {w : ω} {v : Visit} {m : Meter} (hc : s.calls n = some (.enterOut v))
      (hh : (s.look v.ticket).core.locks.holds v.ticket = true)
      (hl : (s.detached v).consumers v.key = [] → s.core.listeners.get? v.key = none) :
      Effect p s (.go n w) (((s.look v.ticket).detached v).leave n v m)
  /-- A call has its lock and detaches the last consumer; the listener is forgotten. -/
  | forget {n i : Nat} {w : ω} {v : Visit} (hc : s.calls n = some (.enterOut v))
      (hh : (s.look v.ticket).core.locks.holds v.ticket = true)
      (hnil : (s.detached v).consumers v.key = []) (hi : s.core.listeners.get? v.key = some i) :
      Effect p s (.go n w) (((s.look v.ticket).detached v).forget n v i)
  /-- A call puts its listener up. -/
  | putUp {n : Nat} {w : ω} {v : Visit} {l : Listener} {client : κ} {m : Meter}
      (hc : s.calls n = some (.subscribe v l))
      (hclient : p.audience client = (p.audience s.client).add v.key l) :
      Effect p s (.go n w) (({ s with client } : Interplay κ).leave n v m)
  /-- A call cannot put its listener up, and takes it back. -/
  | takeBack {n : Nat} {why : Failure} {v : Visit} {l : Listener} {m : Meter}
      (hc : s.calls n = some (.subscribe v l)) :
      Effect p s (.fail n why) ((s.takenBack v l).leave n v m)
  /-- A call takes its listener down. -/
  | takeDown {n : Nat} {w : ω} {v : Visit} {l : Listener} {client : κ} {m : Meter}
      (hc : s.calls n = some (.unsubscribe v l))
      (hclient : p.audience client = (p.audience s.client).remove v.key l) :
      Effect p s (.go n w) (({ s with client } : Interplay κ).leave n v m)
  /-- A call cannot take its listener down. -/
  | strand {n : Nat} {why : Failure} {v : Visit} {l : Listener} {m : Meter}
      (hc : s.calls n = some (.unsubscribe v l)) :
      Effect p s (.fail n why) (({ s with lost := s.lost ++ [l] } : Interplay κ).leave n v m)

/-! ### Each move has an effect -/

theorem go_look {t : Nat} {w : ω} (hneed : c.need = .turn t) : s.go p n w c =
    if (s.look t).core.locks.holds t then
      (s.look t).take n ((s.look t).registry.resume c .admitted) else s.look t := by
  unfold go provide
  rw [hneed]
  dsimp only
  by_cases hh : (s.look t).core.locks.holds t = true
  · rw [if_pos hh, if_pos hh]
  · rw [if_neg hh, if_neg hh]

theorem go_ask {q : Naming.Request} {w : ω} {reply : Except Failure Unit}
    (hneed : c.need = .ask q) (hreply : (p.answer s.client w q).2 = some reply) :
    s.go p n w c =
      ({ s with client := (p.answer s.client w q).1 } : Interplay κ).take n
        (s.registry.answered c reply) := by
  unfold go provide
  rw [hneed]
  dsimp only
  rw [hreply]
  rfl

theorem effect_enter {w : ω} (hc : s.calls n = some (.enter v))
    (hh : (s.look v.ticket).core.locks.holds v.ticket = true) :
    Effect p s (.go n w) ((s.look v.ticket).take n
      ((s.look v.ticket).registry.admitted (.enter v))) := by
  unfold admitted
  dsimp only
  split
  · next hl => exact .join (m := s.core.roster.meter) hc hh hl
  · next hl => exact .make hc hh (Option.not_isSome_iff_eq_none.1 hl)

theorem count_pos_iff (r : Roster) (k : String) : 0 < r.count k ↔ r.consumers k ≠ [] := by
  unfold Roster.count
  exact List.length_pos_iff

theorem effect_enterOut {w : ω} (hc : s.calls n = some (.enterOut v))
    (hh : (s.look v.ticket).core.locks.holds v.ticket = true) :
    Effect p s (.go n w) ((s.look v.ticket).take n
      ((s.look v.ticket).registry.admitted (.enterOut v))) := by
  unfold admitted
  dsimp only
  split
  · next hcount =>
    exact .part (m := (s.core.detach v).roster.meter) hc hh fun hnil =>
      absurd hnil ((count_pos_iff (s.core.detach v).roster v.key).1 hcount)
  · next hcount =>
    have hnil : (s.detached v).consumers v.key = [] :=
      Decidable.not_not.1 fun hne => hcount ((count_pos_iff _ _).2 hne)
    unfold Core.forgetListener
    cases hl : ((s.look v.ticket).core.detach v).listeners.get? v.key with
    | none => exact .part (m := (s.core.detach v).roster.meter) hc hh fun _ => hl
    | some i => exact .forget hc hh hnil hl

theorem effect_go (w : ω) (hc : s.calls n = some c) : Effect p s (.go n w) (s.go p n w c) := by
  cases hv : c.visit? with
  | none =>
    -- the call is not on a key
    obtain ⟨q, hneed, hq⟩ := need_of_plain hv
    have hclient : s.Beside p { s with client := (p.answer s.client w q).1 } :=
      beside_client (listenersAt_request fun l hl => nomatch hq.symm.trans hl)
    cases hreply : (p.answer s.client w q).2 with
    | none =>
      have hgo : s.go p n w c = { s with client := (p.answer s.client w q).1 } := by
        unfold go provide
        rw [hneed]
        dsimp only
        rw [hreply]
        rfl
      rw [hgo]
      exact .beside hclient
    | some reply =>
      rw [go_ask hneed hreply]
      refine .beside (hclient.take (plain_answered _ hv _) fun c' hc' => ?_)
      rw [hc] at hc'
      exact Option.some.inj hc' ▸ hv
  | some v =>
    cases c with
    | enter v =>
      rw [go_look rfl]
      split
      · next hh => exact effect_enter hc hh
      · exact .look
    | enterOut v =>
      rw [go_look rfl]
      split
      · next hh => exact effect_enterOut hc hh
      · exact .look
    | subscribe v l =>
      rw [go_ask rfl (p.reply _ _ _ _ rfl)]
      exact .putUp (m := s.core.roster.meter) hc (p.audience_subscribe _ _ _ _)
    | unsubscribe v l =>
      rw [go_ask rfl (p.reply _ _ _ _ rfl)]
      exact .takeDown (m := s.core.roster.meter) hc (p.audience_unsubscribe _ _ _ _)
    | register key i => exact nomatch hv
    | deregister key ip port ephemeral => exact nomatch hv

theorem effect_start {a : Action} (hfree : s.calls n = none) :
    Effect p s (.start n a) (s.take n (s.registry.start a)) := by
  have hbeside : ∀ {st : Step Services Call}, s.registry.Plain st →
      Effect p s (.start n a) (s.take n st) :=
    fun hst => .beside (s.beside_refl.take hst fun c hc => nomatch hfree.symm.trans hc)
  cases a <;> unfold start <;> dsimp only
  case register e data ephemeral =>
    cases e.key s.registry.core.kind with
    | ok key => exact hbeside (plain_goOn _ rfl)
    | error f => exact hbeside (plain_fail ..)
  case unregister e =>
    cases e.key s.registry.core.kind with
    | ok key => exact hbeside (plain_goOn _ rfl)
    | error f => exact hbeside (plain_fail ..)
  case subscribe e c =>
    cases e.key s.registry.core.kind with
    | ok key => exact .line hfree (.inl rfl)
    | error f => exact hbeside (plain_fail ..)
  case unsubscribe e c =>
    cases e.key s.registry.core.kind with
    | ok key => exact .line hfree (.inr rfl)
    | error f => exact hbeside (plain_fail ..)

theorem effect_fail {why : Failure} {q : Naming.Request} (hc : s.calls n = some c)
    (hneed : c.need = .ask q) : Effect p s (.fail n why)
      ((s.lose q).take n (s.registry.resume c (.answered (.error why)))) := by
  cases hv : c.visit? with
  | none =>
    obtain ⟨q', hneed', hq⟩ := need_of_plain hv
    obtain rfl : q = q' := Need.ask.inj (hneed.symm.trans hneed')
    have hlose : s.lose q = s := by cases q <;> first | rfl | cases hq
    rw [hlose]
    refine .beside (s.beside_refl.take (plain_answered _ hv _) fun c' hc' => ?_)
    rw [hc] at hc'
    exact Option.some.inj hc' ▸ hv
  | some v =>
    cases c with
    | subscribe v l =>
      cases hneed
      exact .takeBack hc
    | unsubscribe v l =>
      cases hneed
      exact .strand hc
    | enter v => cases hneed
    | enterOut v => cases hneed
    | register key i => cases hv
    | deregister key ip port ephemeral => cases hv

/-- **Each move has one of the effects.** -/
theorem step_effect {m : Move κ ω} (hs : s.step p m = some s') : Effect p s m s' := by
  cases m with
  | start n a =>
    dsimp only [step] at hs
    cases hfree : s.calls n with
    | none =>
      rw [hfree] at hs
      exact Option.some.inj hs ▸ effect_start hfree
    | some c =>
      rw [hfree] at hs
      exact nomatch hs
  | go n w =>
    obtain ⟨c, hc, rfl⟩ := Option.map_eq_some_iff.1 hs
    exact effect_go w hc
  | fail n why =>
    dsimp only [step] at hs
    cases hc : s.calls n with
    | none =>
      rw [hc] at hs
      exact nomatch hs
    | some c =>
      rw [hc] at hs
      dsimp only at hs
      split at hs
      · next q hneed => exact Option.some.inj hs ▸ effect_fail hc hneed
      · exact nomatch hs
  | request w q =>
    obtain ⟨hq, hs⟩ := Option.ite_none_left_eq_some.1 hs
    obtain rfl := Option.some.inj hs
    refine .beside (beside_client (listenersAt_request fun l hl => ?_))
    rw [hl] at hq
    exact Bool.eq_false_iff.2 hq
  | change c =>
    obtain ⟨hc, hs⟩ := Option.ite_none_right_eq_some.1 hs
    obtain rfl := Option.some.inj hs
    exact .beside (beside_client (listenersAt_congr hc))
  | count m =>
    obtain rfl := Option.some.inj hs
    exact .beside ⟨⟨m, rfl⟩, fun _ _ _ _ => .rfl, fun _ => rfl, rfl⟩

end Discovery.Registry.Services.Interplay
