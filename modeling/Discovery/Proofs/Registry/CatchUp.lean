import Discovery.Proofs.Registry.FanOut

/-!
# Consumers are up to date

A consumer that subscribes is told what the node of its key has at that time, and from then on it
is told of every change.  A change may come at any time in between: before the node is watched, and
then the data that is read is new already, or after that, and then the watch is there.

* `Devoted`: a consumer that subscribes under one key only is attached to no other.
* `Orderly.turn_effect`: what a turn comes to.
* `Serving`: what holds of every state between two turns, as long as no request fails.
* `caught_up_of_turns`: what a subscribed consumer was told last is what its node has.
-/

namespace Discovery.Registry

def Nodes.Call.attaching : Nodes.Call → Bool
  | .enter _ | .watch _ _ | .read _ | .hand _ _ => true
  | _ => false

namespace Interplay

variable {place : String → String} {s s' : Interplay} {m : Move} {k p : String} {bytes : Bytes}
  {c : Consumer} {n : Nat} {v : Visit} {data : Payload}

/-! ### What was heard last -/

def lastHeard (s : Interplay) (c : Consumer) : Option Payload :=
  ((s.heard.filter (·.consumer == c)).getLast?).map (·.data)

/-- A consumer has been told what there is at a path, if it can be decoded. -/
def CaughtUp (c : Consumer) (p : String) (s : Interplay) : Prop :=
  ∀ bytes data, s.server.tree.data? p = some bytes → Payload.decode bytes = .ok data →
    s.lastHeard c = some data

theorem lastHeard_of_not_mem {new : List Notice} (hs : s'.heard = s.heard ++ new)
    (hnew : ∀ x ∈ new, x.consumer ≠ c) : s'.lastHeard c = s.lastHeard c := by
  have hnil : new.filter (·.consumer == c) = [] :=
    List.filter_eq_nil_iff.2 fun x hx he => hnew x hx (eq_of_beq he)
  unfold lastHeard
  rw [hs, List.filter_append, hnil, List.append_nil]

theorem lastHeard_of_mem {new : List Notice} (hs : s'.heard = s.heard ++ new)
    (hnew : ∃ x ∈ new, x.consumer = c) (hdata : ∀ x ∈ new, x.consumer = c → x.data = data) :
    s'.lastHeard c = some data := by
  unfold lastHeard
  rw [hs, List.filter_append, List.getLast?_append]
  obtain ⟨x, hx, hxc⟩ := hnew
  have hne : new.filter (·.consumer == c) ≠ [] :=
    List.ne_nil_of_mem (List.mem_filter.2 ⟨hx, beq_iff_eq.2 hxc⟩)
  obtain ⟨hlast, hlastc⟩ := List.mem_filter.1 (List.getLast_mem hne)
  rw [List.getLast?_eq_some_getLast hne, Option.some_or, Option.map_some,
    hdata _ hlast (eq_of_beq hlastc)]

/-! ### Consumers of one key -/

/-- A consumer is attached to no key but one, and no call is to attach it to another. -/
structure Devoted (c : Consumer) (k : String) (s : Interplay) : Prop where
  attached : ∀ k', c ∈ s.consumers k' → k' = k
  coming : ∀ n d v, s.calls n = some d → d.attaching = true → d.visit? = some v →
    v.consumer = c → v.key = k

theorem Devoted.update (h : s.Devoted c k) {d : Option Nodes.Call}
    (hcons : ∀ k', c ∈ s'.consumers k' → k' = k)
    (hcalls : s'.calls = Function.update s.calls n d)
    (hd : ∀ e v, d = some e → e.attaching = true → e.visit? = some v → v.consumer = c →
      v.key = k) : s'.Devoted c k := by
  refine ⟨hcons, fun n' e v hn he hv hvc => ?_⟩
  rw [hcalls, Function.update_apply] at hn
  split at hn
  · exact hd e v hn he hv hvc
  · exact h.coming n' e v hn he hv hvc

theorem call_enterOut (s : Interplay) (v : Visit) {d : Nodes.Call}
    (hd : (s.registry.admitted (.enterOut v)).call = some d) : d.attaching = false := by
  unfold Nodes.admitted Core.forgetListener at hd
  dsimp only at hd
  split at hd
  · exact nomatch hd
  · cases hl : (s.registry.core.detach v).listeners.get? v.key with
    | none =>
      rw [hl] at hd
      exact nomatch hd
    | some i =>
      rw [hl] at hd
      obtain rfl := Option.some.inj hd
      rfl

/-- **Moves keep a consumer devoted** that subscribes under its key only. -/
theorem Devoted.effect (h : s.Devoted c k) (he : Effect place s m s')
    (hm : ∀ n e k', m = .start n (.subscribe e c) → e.key Nodes.kind = .ok k' → k' = k) :
    s'.Devoted c k := by
  cases he with
  | beside hb =>
    refine ⟨fun k' hk' => ?_, fun n d v hn hd hv => ?_⟩
    · rw [hb.consumers] at hk'
      exact h.attached k' hk'
    · exact h.coming n d v ((hb.calls n d v hv).1 hn) hd hv
  | lineIn hfree hk =>
    refine h.update h.attached rfl fun d v hd _ hv hvc => ?_
    obtain rfl := Option.some.inj hd
    obtain rfl := Option.some.inj hv
    obtain rfl := hvc
    exact hm _ _ _ rfl hk
  | lineOut hfree =>
    refine h.update h.attached rfl fun d v hd ha _ _ => ?_
    obtain rfl := Option.some.inj hd
    exact nomatch ha
  | look => exact ⟨h.attached, h.coming⟩
  | @enter n v hc hh =>
    have hv := h.coming n _ v hc rfl rfl
    refine h.update (fun k' hk' => ?_) rfl fun d w hd _ hw hwc => ?_
    · rw [consumers_enter] at hk'
      split at hk'
      · next hkv =>
        split at hk'
        · exact hkv.trans (h.attached v.key hk')
        · rcases List.mem_append.1 hk' with hk' | hk'
          · exact hkv.trans (h.attached v.key hk')
          · exact hkv.trans (hv (List.mem_singleton.1 hk').symm)
      · exact h.attached k' hk'
    · obtain rfl := Option.some.inj hd
      obtain rfl := Option.some.inj hw
      exact hv hwc
  | @enterOut n v hc hh =>
    refine h.update (fun k' hk' => ?_) rfl fun d w hd ha _ _ => ?_
    · rw [consumers_enterOut, consumers_detached] at hk'
      split at hk'
      · next hkv => exact hkv.trans (h.attached v.key (List.mem_filter.1 hk').1)
      · exact h.attached k' hk'
    · exact nomatch (call_enterOut _ v hd).symm.trans ha
  | watch hc | find hc =>
    refine h.update h.attached rfl fun d w hd _ hw hwc => ?_
    obtain rfl := Option.some.inj hd
    exact h.coming _ _ w hc rfl hw hwc
  | miss | hand | unwatch | broken =>
    exact h.update h.attached rfl fun d w hd => nomatch hd

/-! ### Turns -/

/-- No consumer is about to be handed what was read for it. -/
def Unhanded (s : Interplay) : Prop :=
  ∀ n v data, s.calls n ≠ some (.hand v data)

/-- What a call has read for its consumer is handed to it, and the call is over. -/
def handOver (s : Interplay) (n : Nat) (v : Visit) (data : Payload) (m : Meter) : Interplay :=
  (s.hearing (s.handed v data)).leave n v m

theorem find_handOver (s : Interplay) (n : Nat) (v : Visit) (data : Payload) (m : Meter) :
    (s.find n v data).handOver n v data m = s.handOver n v data m := by
  have hcalls : Function.update (Function.update s.calls n (some (.hand v data))) n none =
      Function.update s.calls n none := Function.update_idem _ _ _
  show (⟨_, _, Function.update (Function.update s.calls n (some (.hand v data))) n none, _, _⟩ :
    Interplay) = _
  rw [hcalls]
  rfl

/-- A call that is about to hand over data is one that has just read it. -/
theorem Effect.found (he : Effect place s m s') (hs : s.Unhanded)
    (hn : s'.calls n = some (.hand v data)) : m = .go n ∧ s' = s.find n v data ∧
      s.calls n = some (.read v) ∧ ∃ bytes, s.server.tree.data? v.path = some bytes ∧
        Payload.decode bytes = .ok data := by
  have hupdate : ∀ {n' : Nat} {d : Option Nodes.Call}, (∀ v data, d ≠ some (.hand v data)) →
      Function.update s.calls n' d n ≠ some (.hand v data) := by
    intro n' d hd hu
    rw [Function.update_apply] at hu
    split at hu
    · exact hd v data hu
    · exact hs n v data hu
  cases he with
  | beside hb => exact absurd ((hb.calls n _ v rfl).1 hn) (hs n v data)
  | look => exact absurd hn (hs n v data)
  | @find n' v' bytes data' hc hbytes hdata =>
    by_cases hnn : n = n'
    · subst hnn
      have hcall : some (Nodes.Call.hand v' data') = some (.hand v data) :=
        (Function.update_self n _ s.calls).symm.trans hn
      obtain ⟨rfl, rfl⟩ := Nodes.Call.hand.inj (Option.some.inj hcall)
      exact ⟨rfl, rfl, hc, bytes, hbytes, hdata⟩
    · exact absurd ((Function.update_of_ne hnn _ _).symm.trans hn) (hs n v data)
  | enterOut hc hh =>
    refine absurd hn (hupdate fun v' data' hd => ?_)
    exact nomatch (call_enterOut _ _ hd).symm.trans rfl
  | lineIn | lineOut | enter | watch | miss | hand | unwatch | broken =>
    exact absurd hn (hupdate fun _ _ hd => nomatch hd)

/-- **What a turn comes to**: the effect of a move, or that a call reads data and its consumer is
handed it. -/
theorem Orderly.turn_effect (h : s.Orderly place) (hs : s.Unhanded) (hm : m.Placed place)
    (ht : s.turn m = some s') : s'.Unhanded ∧ (Effect place s m s' ∨
      ∃ n v bytes data meter, m = .go n ∧ s.calls n = some (.read v) ∧
        s.server.tree.data? v.path = some bytes ∧ Payload.decode bytes = .ok data ∧
        s' = s.handOver n v data meter ∧ Effect place s m (s.find n v data) ∧
        Effect place (s.find n v data) m s') := by
  by_cases hgo : ∃ n, m = .go n
  · obtain ⟨n, rfl⟩ := hgo
    obtain ⟨t, hst, ht⟩ := Option.bind_eq_some_iff.1 ht
    have he := h.step_effect hm hst
    by_cases hhand : ∃ v data, t.calls n = some (.hand v data)
    · -- the move has read data, so the second one hands it over
      obtain ⟨v, data, hn⟩ := hhand
      obtain ⟨_, rfl, hc, bytes, hbytes, hdata⟩ := he.found hs hn
      have hhanding : (s.find n v data).handing n = true := by
        unfold handing
        rw [hn]
      rw [if_pos hhanding] at ht
      have he' := (h.effect he).step_effect hm ht
      obtain ⟨meter, hmeter⟩ := (s.find n v data).go_hand n v data
      have hs' : s' = s.handOver n v data meter := by
        rw [← find_handOver]
        refine Option.some.inj (ht.symm.trans ?_)
        show ((s.find n v data).calls n).map ((s.find n v data).go n) = _
        rw [hn, Option.map_some, hmeter]
        rfl
      refine ⟨?_, .inr ⟨n, v, bytes, data, meter, rfl, hc, hbytes, hdata, hs', he, he'⟩⟩
      rw [hs']
      intro n' v' data' hn'
      change Function.update s.calls n none n' = _ at hn'
      rw [Function.update_apply] at hn'
      split at hn'
      · exact nomatch hn'
      · exact hs n' v' data' hn'
    · have hhanding : t.handing n = false := by
        unfold handing
        split
        · next v data hn => exact absurd ⟨v, data, hn⟩ hhand
        · rfl
      rw [if_neg (by rw [hhanding]; decide)] at ht
      obtain rfl := Option.some.inj ht
      refine ⟨fun n' v data hn => ?_, .inl he⟩
      obtain ⟨hnn, _⟩ := he.found hs hn
      injection hnn with hnn
      subst hnn
      exact hhand ⟨v, data, hn⟩
  · have hst : s.step m = some s' := by
      cases m with
      | go n => exact absurd ⟨n, rfl⟩ hgo
      | _ => exact ht
    have he := h.step_effect hm hst
    exact ⟨fun n v data hn => hgo ⟨n, (he.found hs hn).1⟩, .inl he⟩

/-- **Between two turns**, as long as no request has failed and a consumer subscribes under one key
only. -/
structure Serving (place : String → String) (c : Consumer) (k : String) (s : Interplay) :
    Prop where
  orderly : s.Orderly place
  covered : s.Covered place
  devoted : s.Devoted c k
  unhanded : s.Unhanded

/-- A move that is not a failure and does not subscribe a consumer under another key. -/
structure Serves (place : String → String) (c : Consumer) (k : String) (m : Move) : Prop where
  placed : m.Placed place
  works : ∀ n why, m ≠ .fail n why
  devoted : ∀ n e k', m = .start n (.subscribe e c) → e.key Nodes.kind = .ok k' → k' = k

theorem Serving.turn (h : s.Serving place c k) (hm : Serves place c k m)
    (ht : s.turn m = some s') : s'.Serving place c k := by
  obtain ⟨hs', he | ⟨n, v, bytes, data, meter, _, _, _, _, _, he, he'⟩⟩ :=
    h.orderly.turn_effect h.unhanded hm.placed ht
  · exact ⟨h.orderly.effect he, h.orderly.covered_effect h.covered he hm.works,
      h.devoted.effect he hm.devoted, hs'⟩
  · have ho := h.orderly.effect he
    exact ⟨ho.effect he',
      ho.covered_effect (h.orderly.covered_effect h.covered he hm.works) he' hm.works,
      (h.devoted.effect he hm.devoted).effect he' hm.devoted, hs'⟩

theorem turns_cons (s : Interplay) (m : Move) (ms : List Move) :
    s.turns (m :: ms) = (s.turn m).bind fun t => t.turns ms :=
  rfl

theorem turns_append (s : Interplay) (ms ms' : List Move) :
    s.turns (ms ++ ms') = (s.turns ms).bind fun t => t.turns ms' :=
  List.foldlM_append

theorem Serving.turns (h : s.Serving place c k) {ms : List Move}
    (hms : ∀ m ∈ ms, Serves place c k m) (hs : s.turns ms = some s') : s'.Serving place c k :=
  (throughout_true ms s).keeps (fun h _ hm ht => h.turn hm ht) h hms hs

/-! ### What a turn leaves known -/

/-- A change of the tree reaches a consumer whose node is watched. -/
theorem Serving.caughtUp_beside (h : s.Serving place c k) (hb : s.Beside s')
    (hc : c ∈ s.consumers k) (hw : s.watchesFor k (place k) ≠ [])
    (hcaught : s.CaughtUp c (place k)) : s'.CaughtUp c (place k) := by
  obtain ⟨ds, hds, hheard⟩ := hb.heard
  cases hds with
  | lost less owed =>
    have hnil : ds.flatMap s.core.told = [] := by
      refine List.flatMap_eq_nil_iff.2 fun d hd => ?_
      obtain ⟨l, e⟩ := d
      obtain ⟨q, rfl⟩ := owed _ hd
      exact told_deleted _ _ _
    intro bytes data hbytes hdata
    -- nobody is told of new data, and what is at the place is what was there
    rcases less (place k) with hq | hq
    · rw [lastHeard_of_not_mem hheard (by rw [hnil]; exact fun _ hx => nomatch hx)]
      exact hcaught bytes data (hq ▸ hbytes) hdata
    · exact nomatch hq.symm.trans hbytes
  | gained p bytes here other owed =>
    subst owed
    intro bytes' data hbytes' hdata
    by_cases hp : place k = p
    · -- the consumer is told of the new data
      subst hp
      obtain rfl := Option.some.inj (here.symm.trans hbytes')
      refine lastHeard_of_mem hheard
        ⟨⟨k, c, data⟩, mem_told_deliveries.2 ⟨hw, hdata, hc⟩, rfl⟩ fun x hx _ => ?_
      exact Except.ok.inj ((mem_told_deliveries.1 hx).2.1.symm.trans hdata)
    · -- the consumer is attached to no key whose node is there
      rw [lastHeard_of_not_mem hheard]
      · exact hcaught bytes' data ((other _ hp).symm.trans hbytes') hdata
      · rintro x hx rfl
        obtain ⟨hwx, _, hcx⟩ := mem_told_deliveries.1 hx
        obtain hk := h.devoted.attached x.key hcx
        rcases h.orderly.watched x.key p with hnil | ⟨hp', _⟩
        · exact hwx hnil
        · exact hp (hk ▸ hp'.symm)

theorem CaughtUp.of_same (h : s.CaughtUp c p) (hheard : s'.heard = s.heard)
    (hnodes : s'.server.tree.nodes = s.server.tree.nodes) : s'.CaughtUp c p := by
  unfold CaughtUp lastHeard Tree.data? at h ⊢
  rw [hheard, hnodes]
  exact h

theorem Serving.caughtUp_handOver (h : s.Serving place c k) {meter : Meter}
    (hread : s.calls n = some (.read v)) (hv : v.consumer = c)
    (hbytes : s.server.tree.data? v.path = some bytes) (hdata : Payload.decode bytes = .ok data) :
    (s.handOver n v data meter).CaughtUp c (place k) := by
  obtain ⟨hpath, _, hmem⟩ := h.orderly.visiting n _ v hread rfl
  have hk := h.devoted.coming n _ v hread rfl rfl hv
  intro bytes' data' hbytes' hdata'
  rw [hpath, hk] at hbytes
  obtain rfl := Option.some.inj (hbytes.symm.trans hbytes')
  obtain rfl := Except.ok.inj (hdata.symm.trans hdata')
  have hheard : (s.handOver n v data meter).heard = s.heard ++ s.handed v data := rfl
  unfold handed at hheard
  rw [if_pos (show v.consumer ∈ s.consumers v.key from hmem)] at hheard
  refine lastHeard_of_mem hheard ⟨_, List.mem_singleton_self _, hv⟩ fun x hx _ => ?_
  rw [List.mem_singleton.1 hx]

theorem CaughtUp.handOver (h : s.CaughtUp c p) {meter : Meter} (hv : v.consumer ≠ c) :
    (s.handOver n v data meter).CaughtUp c p := by
  intro bytes' data' hbytes' hdata'
  have hheard : (s.handOver n v data meter).heard = s.heard ++ s.handed v data := rfl
  rw [lastHeard_of_not_mem hheard]
  · exact h bytes' data' hbytes' hdata'
  · intro x hx
    unfold handed at hx
    split at hx
    · rw [List.mem_singleton.1 hx]
      exact hv
    · exact nomatch hx

/-- **A consumer stays up to date.** -/
theorem Serving.caughtUp_turn (h : s.Serving place c k) (hm : Serves place c k m)
    (ht : s.turn m = some s') (hc : c ∈ s.consumers k) (hw : s.watchesFor k (place k) ≠ [])
    (hcaught : s.CaughtUp c (place k)) : s'.CaughtUp c (place k) := by
  obtain ⟨_, he | ⟨n, v, bytes, data, meter, _, hread, hbytes, hdata, rfl, _, _⟩⟩ :=
    h.orderly.turn_effect h.unhanded hm.placed ht
  · cases he with
    | beside hb => exact h.caughtUp_beside hb hc hw hcaught
    | watch hc => exact hcaught.of_same rfl (Tree.nodes_watch _ _ _ _)
    | unwatch hc => exact hcaught.of_same rfl (Tree.nodes_unwatch _ _ _)
    | hand hc => exact absurd hc (h.unhanded _ _ _)
    | _ => exact hcaught.of_same rfl rfl
  · by_cases hv : v.consumer = c
    · exact h.caughtUp_handOver hread hv hbytes hdata
    · exact hcaught.handOver hv

theorem Serving.watched_turn (h : s.Serving place c k) (hm : Serves place c k m)
    (ht : s.turn m = some s') (hc : c ∈ s.consumers k) (hw : s.watchesFor k (place k) ≠ []) :
    s'.watchesFor k (place k) ≠ [] := by
  obtain ⟨_, he | ⟨_, _, _, _, _, _, _, _, _, rfl, _, _⟩⟩ :=
    h.orderly.turn_effect h.unhanded hm.placed ht
  · rcases h.orderly.watchesFor_effect he (List.ne_nil_of_mem hc) with hw' | hw'
    · rw [hw']
      exact hw
    · exact hw'
  · exact hw

theorem Serving.watched_of_read (h : s.Serving place c k) (hread : s.calls n = some (.read v)) :
    s.watchesFor v.key (place v.key) ≠ [] := by
  have hmem := (h.orderly.visiting n _ v hread rfl).phase
  rcases h.covered v.key (List.ne_nil_of_mem hmem) with hw | ⟨n', v', l, hn', hk⟩
  · exact hw
  · have hnn := h.orderly.unique hn' hread rfl rfl (h.orderly.holds_of_inside hn' rfl rfl)
      (h.orderly.holds_of_inside hread rfl rfl) hk
    subst hnn
    exact nomatch hn'.symm.trans hread

/-- **When a call to subscribe returns, its consumer is up to date**, and its key is watched. -/
theorem Serving.caughtUp_return (h : s.Serving place c k) (hm : Serves place c k (.go n))
    {d : Nodes.Call} (hcall : s.calls n = some d) (ha : d.attaching = true)
    (hv : d.visit? = some v) (hvc : v.consumer = c) (ht : s.turn (.go n) = some s')
    (hover : s'.calls n = none) :
    s'.CaughtUp c (place k) ∧ s'.watchesFor k (place k) ≠ [] := by
  have hk := h.devoted.coming n d v hcall ha hv hvc
  obtain ⟨_, he | ⟨n', v', bytes, data, meter, hnn, hread, hbytes, hdata, rfl, _, _⟩⟩ :=
    h.orderly.turn_effect h.unhanded hm.placed ht
  · cases he with
    | beside hb => exact nomatch hover.symm.trans ((hb.calls n d v hv).2 hcall)
    | look => exact nomatch hover.symm.trans hcall
    | enter hc hh => exact nomatch hover.symm.trans (Function.update_self _ _ _)
    | watch hc => exact nomatch hover.symm.trans (Function.update_self _ _ _)
    | find hc _ _ => exact nomatch hover.symm.trans (Function.update_self _ _ _)
    | enterOut hc hh =>
      obtain rfl := Option.some.inj (hcall.symm.trans hc)
      exact nomatch ha
    | unwatch hc =>
      obtain rfl := Option.some.inj (hcall.symm.trans hc)
      exact nomatch ha
    | hand hc => exact absurd hc (h.unhanded _ _ _)
    | miss hc hno =>
      -- there is nothing that could have been told
      obtain rfl := Option.some.inj (hcall.symm.trans hc)
      obtain rfl := Option.some.inj hv
      have hw := h.watched_of_read hc
      rw [hk] at hw
      refine ⟨fun bytes data hbytes hdata => absurd hdata (hno bytes data ?_), hw⟩
      rw [(h.orderly.visiting n _ _ hc rfl).path, hk]
      exact hbytes
  · injection hnn with hnn
    subst hnn
    obtain rfl := Option.some.inj (hcall.symm.trans hread)
    obtain rfl := Option.some.inj hv
    have hw := h.watched_of_read hread
    rw [hk] at hw
    exact ⟨h.caughtUp_handOver hread hvc hbytes hdata, hw⟩

/-- **A subscribed consumer stays up to date.** -/
theorem Serving.caughtUp_turns (h : s.Serving place c k) {ms : List Move}
    (hms : ∀ m ∈ ms, Serves place c k m) (hs : s.turns ms = some s')
    (hc : Throughout Interplay.turn (fun t => c ∈ t.consumers k) s ms)
    (hw : s.watchesFor k (place k) ≠ []) (hcaught : s.CaughtUp c (place k)) :
    s'.CaughtUp c (place k) := by
  have hturn : ∀ {t t' : Interplay} {m : Move},
      t.Serving place c k ∧ t.watchesFor k (place k) ≠ [] ∧ t.CaughtUp c (place k) →
      c ∈ t.consumers k → Serves place c k m → t.turn m = some t' →
      t'.Serving place c k ∧ t'.watchesFor k (place k) ≠ [] ∧ t'.CaughtUp c (place k) := by
    rintro t t' m ⟨ht, hw, hcaught⟩ hc hm hst
    exact ⟨ht.turn hm hst, ht.watched_turn hm hst hc hw, ht.caughtUp_turn hm hst hc hw hcaught⟩
  exact (hc.keeps hturn ⟨h, hw, hcaught⟩ hms hs).2.2

/-- In a run of turns a call to subscribe a consumer under a key returns, and the consumer has been
attached to the key since. -/
def Subscribed (s : Interplay) (c : Consumer) (k : String) (ms : List Move) : Prop :=
  ∃ before n after u d v w, ms = before ++ .go n :: after ∧ s.turns before = some u ∧
    u.calls n = some d ∧ d.attaching = true ∧ d.visit? = some v ∧ v.key = k ∧ v.consumer = c ∧
    u.turn (.go n) = some w ∧ w.calls n = none ∧
    Throughout Interplay.turn (fun t => c ∈ t.consumers k) w after

theorem serving_begin {conduct : Conduct} {v : Tree.Server} {id : Nat} {session : Tree.SessionId}
    (hopen : v.isClosed session = false)
    (hnew : ∀ p, ∀ w ∈ v.tree.watchesAt p, w.listener.isOf id = false) :
    (begin conduct v id session).Serving place c k where
  orderly := orderly_begin hopen hnew
  covered := covered_begin
  devoted := ⟨fun _ hc => absurd hc List.not_mem_nil, fun _ _ _ hn => nomatch hn⟩
  unhanded _ _ _ hn := nomatch hn

/-- **No update is missed.**  Let a consumer subscribe under one key only, and let no request fail.
However calls and changes of the tree interleave: once a call to subscribe the consumer has
returned, and as long as it stays subscribed, what it was told last is what the node of its key
has, if that can be decoded. -/
theorem caught_up_of_turns {conduct : Conduct} {v : Tree.Server} {id : Nat}
    {session : Tree.SessionId} {ms : List Move} (hopen : v.isClosed session = false)
    (hnew : ∀ p, ∀ w ∈ v.tree.watchesAt p, w.listener.isOf id = false)
    (hms : ∀ m ∈ ms, m.Placed place) (hfail : ∀ n why, .fail n why ∉ ms)
    (hone : ∀ n e k', .start n (.subscribe e c) ∈ ms → e.key Nodes.kind = .ok k' → k' = k)
    (hrun : (begin conduct v id session).turns ms = some s)
    (hsub : (begin conduct v id session).Subscribed c k ms)
    (hbytes : s.server.tree.data? (place k) = some bytes)
    (hdata : Payload.decode bytes = .ok data) : s.lastHeard c = some data := by
  have hserves : ∀ m ∈ ms, Serves place c k m := by
    refine fun m hm => ⟨hms m hm, ?_, ?_⟩
    · rintro n why rfl
      exact hfail n why hm
    · rintro n e k' rfl
      exact hone n e k' hm
  have h₀ : (begin conduct v id session).Serving place c k := serving_begin hopen hnew
  obtain ⟨before, n, after, u, d, x, w, rfl, hu, hcall, ha, hv, rfl, hxc, hw, hover, hsince⟩ := hsub
  have h := h₀.turns (fun m hm => hserves m (List.mem_append_left _ hm)) hu
  have hgo : Serves place c x.key (.go n) :=
    hserves _ (List.mem_append_right _ List.mem_cons_self)
  rw [turns_append, hu] at hrun
  change u.turns (.go n :: after) = some s at hrun
  rw [turns_cons, hw] at hrun
  obtain ⟨hcaught, hwatched⟩ := h.caughtUp_return hgo hcall ha hv hxc hw hover
  exact (h.turn hgo hw).caughtUp_turns
    (fun m hm => hserves m (List.mem_append_right _ (List.mem_cons_of_mem _ hm))) hrun hsince
    hwatched hcaught bytes data hbytes hdata

def news : Payload :=
  (∅ : Payload).insert "v" "2"

/-- A node is created while a consumer subscribes, and written to while another one does. -/
def updates : List Move :=
  [.connect, .start 0 (.subscribe shop "c"), .go 0, .request 2 (.create "/a" [] .persistent), .go 0,
    .go 0, .start 1 (.subscribe shop "d"), .write "/a" news.encode, .go 1]

theorem caught_up_of_updates : ∃ s, fresh.turns updates = some s ∧
    s.server.tree.data? "/a" = some news.encode ∧ s.lastHeard "c" = some news := by
  obtain ⟨s, hs, hbytes⟩ : ∃ s, fresh.turns updates = some s ∧
      s.server.tree.data? "/a" = some news.encode := ⟨_, rfl, rfl⟩
  have hms : ∀ m ∈ updates, m.Placed fun _ => "/a" := placed_of_all (by decide)
  have hone : ∀ n e k, .start n (.subscribe e "c") ∈ updates → e.key Nodes.kind = .ok k →
      k = "zookeeper://h:1/a" := by
    intro n e k hm hk
    have he : e = shop := by
      simp [updates] at hm
      exact hm.2
    subst he
    exact Except.ok.inj (hk.symm.trans (by decide))
  have hsub : fresh.Subscribed "c" "zookeeper://h:1/a" updates := by
    refine ⟨updates.take 5, 0, updates.drop 6, _, _, _, _, rfl, rfl, rfl, rfl, rfl, by decide,
      by decide, rfl, rfl, by decide, fun t ht => ?_⟩
    obtain rfl := Option.some.inj ht
    refine ⟨by decide, fun t ht => ?_⟩
    obtain rfl := Option.some.inj ht
    refine ⟨by decide, fun t ht => ?_⟩
    obtain rfl := Option.some.inj ht
    show _ ∈ _
    decide
  exact ⟨s, hs, hbytes, caught_up_of_turns rfl (fun p w hw => absurd hw List.not_mem_nil) hms
    (fun n why hm => by simp [updates] at hm) hone hs hsub hbytes rfl⟩

end Interplay

end Discovery.Registry
