import Discovery.Proofs.Registry.Effect

/-!
# Moves keep an interplay orderly

* `Orderly.look`, `Orderly.enter`, `Orderly.enterOut`: a call at its lock.
* `Orderly.leave`: a call ends and gives up its lock.
* `Orderly.watch`, `Orderly.find`, `Orderly.unwatch`: requests of a call that has its lock.
* `Orderly.line`: a call begins.
* `Orderly.beside`: whatever leaves the keys alone.
* `Orderly.step`, `Orderly.run`: any move, and any run.
-/

namespace Discovery.Registry

open Discovery.Tree (Request Reply)

namespace Interplay

variable {place : String → String} {s : Interplay} {n : Nat} {c : Nodes.Call} {v : Visit}
  {l : Listener}

/-! ### At the lock -/

theorem Orderly.look (h : s.Orderly place) (t : Nat) : (s.look t).Orderly place := by
  refine ⟨h.kind, h.isOpen, h.locks.poll t, h.nodup, h.listed, h.ticket, fun n c v hc hv => ?_,
    h.watched⟩
  obtain ⟨hp, ⟨x, hx, hxt, hxk, hxh⟩, hph⟩ := h.visiting n c v hc hv
  obtain ⟨y, hy, hyt, hyk, hyh⟩ := Locks.exists_mem_claims_poll h.locks t hx
  exact ⟨hp, ⟨y, hy, hyt.trans hxt, hyk.trans hxk, fun hi => hyh (hxh hi)⟩,
    Core.Phase.of_same hph hv rfl rfl rfl⟩

theorem Orderly.heldClaim (h : s.Orderly place) (hc : s.calls n = some c)
    (hv : c.visit? = some v) (hh : s.core.locks.holds v.ticket = true) :
    ∃ x ∈ s.core.locks.claims, x.ticket = v.ticket ∧ x.key = v.key ∧ x.held = true := by
  obtain ⟨x, hx, hxt, hxk, _⟩ := (h.visiting n c v hc hv).claim
  obtain ⟨y, hy, hyt, hyh⟩ := h.locks.holds_iff.1 hh
  rw [h.locks.eq_of_ticket hy hx (hyt.trans hxt.symm)] at hyh
  exact ⟨x, hx, hxt, hxk, hyh⟩

theorem hasListener_iff (k : Core) (key : String) :
    k.hasListener key = true ↔ ∃ i, k.listeners.get? key = some i := by
  unfold Core.hasListener Table.contains
  exact Option.isSome_iff_exists

/-- While a call has its lock and is not taking a listener down, a watch for its key is there for
the listener that the registry keeps. -/
theorem Orderly.backed_own (h : s.Orderly place) (hc : s.calls n = some c)
    (hv : c.visit? = some v) (hh : s.core.locks.holds v.ticket = true)
    (hnot : ∀ l, c ≠ .unwatch v l) {i : Nat} (hb : s.Backed v.key i) :
    s.core.listeners.get? v.key = some i := by
  rcases hb with hb | ⟨m, w, hm⟩
  · exact hb
  · have hk := h.key_of_unwatch hm
    have hmn := h.unique hm hc rfl hv (h.holds_of_inside hm rfl rfl) hh hk
    subst hmn
    rw [hc, Option.some.injEq] at hm
    subst hm
    cases hv
    exact absurd rfl (hnot _)

theorem consumers_enter (s : Interplay) (n : Nat) (v : Visit) (k : String) :
    (s.letIn n (.enter v)).consumers k = if k = v.key then
      if (s.consumers v.key).contains v.consumer then s.consumers v.key
      else s.consumers v.key ++ [v.consumer] else s.consumers k := by
  obtain ⟨_, _, _, _, _, hroster, _, _⟩ := Nodes.listenerFor_spec (s.core.attach v) v.key
  show (Nodes.listenerFor (s.core.attach v) v.key).1.roster.consumers k = _
  rw [hroster]
  exact Roster.consumers_attach _ _ _ _

/-- **A consumer comes in**: it is attached, and its key has a listener. -/
theorem Orderly.enter (h : s.Orderly place) (hc : s.calls n = some (.enter v))
    (hh : s.core.locks.holds v.ticket = true) :
    (s.letIn n (.enter v)).Orderly place := by
  obtain ⟨i, hl, hi, hold, hother, hroster, hlocks, hid⟩ :=
    Nodes.listenerFor_spec (s.core.attach v) v.key
  generalize ht : s.letIn n (.enter v) = t
  have hcore : t.core = (Nodes.listenerFor (s.core.attach v) v.key).1 := by rw [← ht]; rfl
  have htkind : t.core.kind = s.core.kind := by
    unfold Core.kind
    rw [hcore, hroster]
    rfl
  have htid : t.core.id = s.core.id := by rw [hcore, hid]; rfl
  have htlocks : t.core.locks = s.core.locks := by rw [hcore, hlocks]; rfl
  have htsession : t.registry.session = s.registry.session := by rw [← ht]; rfl
  have htserver : t.server = s.server := by rw [← ht]; rfl
  have hwf : ∀ k p, t.watchesFor k p = s.watchesFor k p :=
    fun k p => watchesFor_congr htid (by rw [htserver]) k
  have hcons := consumers_enter s n v
  rw [ht] at hcons
  have hmem : v.consumer ∈ t.consumers v.key := by
    rw [hcons, if_pos rfl]
    split
    · next hm => exact List.contains_iff_mem.1 hm
    · exact List.mem_append_right _ (List.mem_singleton.2 rfl)
  have hlisteners : t.core.listeners.get? v.key = some i := by rw [hcore]; exact hi
  obtain ⟨x, hx, hxt, hxk, hxh⟩ := h.heldClaim hc rfl hh
  refine h.advance hc rfl (d := some (.watch v (Nodes.listenerFor (s.core.attach v) v.key).2))
    htkind htid htsession (by rw [htserver]; exact h.isOpen) (by rw [htlocks]; exact h.locks)
    (fun y hy _ => by rw [htlocks]; exact hy) (by rw [← ht]; rfl) ?_ ?_ hh ?_ ?_ ?_
  · rintro c' hc'
    cases hc'
    refine ⟨rfl, (h.visiting n _ v hc rfl).path, ⟨x, by rw [htlocks]; exact hx, hxt, hxk,
      fun _ => hxh⟩, hmem, i, hlisteners, ?_⟩
    rw [hl, listener_congr htid]
    rfl
  · intro k hk
    exact ⟨by rw [hcons, if_neg hk], by rw [hcore]; exact hother k hk, hwf k⟩
  · rw [hcons, if_pos rfl]
    split
    · exact h.nodup v.key
    · next hm =>
      rw [List.nodup_append]
      refine ⟨h.nodup v.key, by simp, fun a ha b hb hab => hm (List.contains_iff_mem.2 ?_)⟩
      obtain rfl := List.mem_singleton.1 hb
      exact hab ▸ ha
  · rw [hasListener_iff]
    exact ⟨fun _ => List.ne_nil_of_mem hmem, fun _ => ⟨i, hlisteners⟩⟩
  · intro p
    unfold Watched
    rw [hwf, htsession]
    rcases h.watched v.key p with hnil | ⟨hp, j, hj, hb⟩
    · exact .inl hnil
    · -- the watch that is there is for a listener that the key had, and keeps
      have hown := h.backed_own hc rfl hh (fun l hl => nomatch hl) hb
      have hij : i = j := by
        rcases hold with hold | hold
        · exact Option.some.inj (hold.symm.trans hown)
        · exact nomatch hold.symm.trans hown
      exact .inr ⟨hp, j, by rw [hj, listener_congr htid], .inl (hij ▸ hlisteners)⟩

/-! ### Leaving -/

/-- **A call ends.**  If it has taken down a listener, the watch for that is gone. -/
theorem Orderly.leave (h : s.Orderly place) (hc : s.calls n = some c) (hv : c.visit? = some v)
    (hh : s.core.locks.holds v.ticket = true)
    (hfree : ∀ l, c = .unwatch v l → ∀ p, s.watchesFor v.key p = []) (m : Meter) :
    (s.leave n v m).Orderly place := by
  refine h.advance hc hv (d := none) rfl rfl rfl h.isOpen (h.locks.drop v.ticket)
    (fun x hx hne => (Locks.mem_claims_drop h.locks).2 ⟨hx, hne⟩) rfl
    (fun c' hc' => nomatch hc') (fun k _ => ⟨rfl, rfl, fun _ => rfl⟩) hh
    (h.nodup v.key) (h.listed v.key) fun p => ?_
  by_cases hu : ∃ l, c = .unwatch v l
  · obtain ⟨l, hl⟩ := hu
    exact .inl (hfree l hl p)
  · rcases h.watched v.key p with hnil | ⟨hp, i, hi, hb⟩
    · exact .inl hnil
    · exact .inr ⟨hp, i, hi, .inl (h.backed_own hc hv hh (fun l hl => hu ⟨l, hl⟩) hb)⟩

def detached (s : Interplay) (v : Visit) : Interplay :=
  { s with registry.core := s.core.detach v }

theorem consumers_detached (s : Interplay) (v : Visit) (k : String) : (s.detached v).consumers k =
    if k = v.key then (s.consumers v.key).filter (· != v.consumer) else s.consumers k :=
  Roster.consumers_detach _ _ _ _

/-- A consumer is detached that is not the last one of a key with a listener. -/
theorem Orderly.detached (h : s.Orderly place) (hc : s.calls n = some (.enterOut v))
    (hh : s.core.locks.holds v.ticket = true)
    (hl : s.core.hasListener v.key = true → (s.detached v).consumers v.key ≠ []) :
    (s.detached v).Orderly place := by
  refine h.advance hc rfl (d := some (.enterOut v)) (Roster.kind_detach ..) rfl rfl h.isOpen h.locks
    (fun x hx _ => hx) (by rw [← hc, Function.update_eq_self]; rfl) ?_ ?_ hh ?_ ?_ ?_
  · rintro c' hc'
    cases hc'
    obtain ⟨hp, hcl, _⟩ := h.visiting n _ v hc rfl
    exact ⟨rfl, hp, hcl, trivial⟩
  · intro k hk
    exact ⟨by rw [consumers_detached, if_neg hk], rfl, fun _ => rfl⟩
  · rw [consumers_detached, if_pos rfl]
    exact (h.nodup v.key).filter _
  · refine ⟨hl, fun hne => (h.listed v.key).2 fun hnil => hne ?_⟩
    rw [consumers_detached, if_pos rfl, hnil]
    rfl
  · exact h.watched v.key

theorem consumers_enterOut (s : Interplay) (n : Nat) (v : Visit) (k : String) :
    (s.letIn n (.enterOut v)).consumers k = (s.detached v).consumers k := by
  unfold letIn Nodes.admitted Core.forgetListener
  dsimp only
  split
  · rfl
  · cases (s.core.detach v).listeners.get? v.key <;> rfl

theorem count_eq_zero_iff (r : Roster) (k : String) : r.count k = 0 ↔ r.consumers k = [] := by
  unfold Roster.count
  exact List.length_eq_zero_iff

/-- **A consumer goes.**  With the last one the listener of the key goes too. -/
theorem Orderly.enterOut (h : s.Orderly place) (hc : s.calls n = some (.enterOut v))
    (hh : s.core.locks.holds v.ticket = true) :
    (s.letIn n (.enterOut v)).Orderly place := by
  have hstay : (s.core.hasListener v.key = true → (s.detached v).consumers v.key ≠ []) →
      ((s.detached v).leave n v (s.core.detach v).roster.meter).Orderly place := by
    intro hl
    exact (h.detached hc hh hl).leave hc rfl hh (fun l hl => nomatch hl) _
  unfold letIn Nodes.admitted
  dsimp only
  split
  · next hcount =>
    refine hstay fun _ hnil => ?_
    have hz := (count_eq_zero_iff (s.core.detach v).roster v.key).2 hnil
    rw [hz] at hcount
    exact Nat.lt_irrefl 0 hcount
  · next hcount =>
    have hnil : (s.detached v).consumers v.key = [] :=
      (count_eq_zero_iff _ _).1 (Nat.eq_zero_of_not_pos hcount)
    unfold Core.forgetListener
    cases hl : (s.core.detach v).listeners.get? v.key with
    | none =>
      dsimp only
      refine hstay fun hhas => ?_
      obtain ⟨i, hi⟩ := (hasListener_iff s.core v.key).1 hhas
      exact nomatch hl.symm.trans hi
    | some i =>
      obtain ⟨x, hx, hxt, hxk, hxh⟩ := h.heldClaim hc rfl hh
      refine h.advance hc rfl (d := some (.unwatch v (s.core.listener v.key i)))
        (Roster.kind_detach ..) rfl rfl h.isOpen h.locks (fun x hx _ => hx) rfl ?_ ?_ hh ?_ ?_ ?_
      · rintro c' hc'
        cases hc'
        exact ⟨rfl, (h.visiting n _ v hc rfl).path, ⟨x, hx, hxt, hxk, fun _ => hxh⟩, hnil, i, rfl⟩
      · intro k hk
        exact ⟨(consumers_detached s v k).trans (if_neg hk), Table.get?_erase_of_ne _ hk,
          fun _ => rfl⟩
      · exact hnil ▸ List.nodup_nil
      · refine ⟨fun hhas => ?_, fun hne => absurd hnil hne⟩
        obtain ⟨j, hj⟩ := (hasListener_iff _ v.key).1 hhas
        exact nomatch (Table.get?_erase_self s.core.listeners v.key).symm.trans hj
      · intro p
        rcases h.watched v.key p with hnil | ⟨hp, j, hj, hb⟩
        · exact .inl hnil
        · -- the watch that is there is for the listener that is taken down now
          have hown := h.backed_own hc rfl hh (fun l hl => nomatch hl) hb
          have hij : i = j := Option.some.inj (hl.symm.trans hown)
          exact .inr ⟨hp, j, hj, .inr ⟨n, v, by rw [← hij]; exact Function.update_self _ _ _⟩⟩

/-! ### The registry's watches -/

/-- **A key is watched at its place afterwards**, by its listener; nothing else has changed. -/
theorem Orderly.watchesFor_watch (h : s.Orderly place) (hc : s.calls n = some (.watch v l))
    (k p : String) : (s.watch n v l).watchesFor k p =
      if k = v.key ∧ p = place v.key then [⟨s.registry.session, l⟩] else s.watchesFor k p := by
  obtain ⟨hpath, _, _, i, hi, hl⟩ := h.visiting n _ v hc rfl
  have hheld := h.holds_of_inside hc rfl rfl
  show ((s.server.tree.watch s.registry.session v.path l).watchesAt p).filter
    (·.listener.isFor s.core.id k) = _
  rw [Tree.watchesAt_watch, hpath]
  by_cases hp : p = place v.key
  · subst hp
    by_cases hk : k = v.key
    · subst hk
      rcases h.watched v.key (place v.key) with hnil | ⟨_, j, hj, hb⟩
      · -- no watch for the key is there, so the listener is not either, and it is added
        have hany : ¬ (s.server.tree.watchesAt (place v.key)).any (·.listener == l) = true := by
          intro hany
          obtain ⟨w, hw, hwl⟩ := List.any_eq_true.1 hany
          have hmem : w ∈ s.watchesFor v.key (place v.key) := by
            refine List.mem_filter.2 ⟨hw, ?_⟩
            rw [eq_of_beq hwl, hl, isFor_listener]
            exact beq_self_eq_true v.key
          rw [hnil] at hmem
          exact nomatch hmem
        unfold watchesFor at hnil
        rw [if_pos ⟨rfl, hany⟩, if_pos ⟨rfl, rfl⟩, List.filter_append, hnil, List.nil_append,
          List.filter_cons_of_pos, List.filter_nil]
        rw [hl, isFor_listener]
        exact beq_self_eq_true v.key
      · -- the watch is there already: it is for the listener that the registry keeps
        have hij : j = i := Option.some.inj ((h.backed_own hc rfl hheld
          (fun l hl => nomatch hl) hb).symm.trans hi)
        rw [hij, ← hl] at hj
        have hmem : (⟨s.registry.session, l⟩ : Tree.Watch) ∈ s.watchesFor v.key (place v.key) := by
          rw [hj]
          exact List.mem_singleton_self _
        have hany : (s.server.tree.watchesAt (place v.key)).any (·.listener == l) = true :=
          List.any_eq_true.2 ⟨_, (List.mem_filter.1 hmem).1, beq_self_eq_true l⟩
        rw [if_neg fun hn => hn.2 hany, if_pos ⟨rfl, rfl⟩]
        exact hj
    · split
      · rw [if_neg fun hn => hk hn.1, List.filter_append, List.filter_cons_of_neg, List.filter_nil,
          List.append_nil]
        · rfl
        · rw [hl, isFor_listener]
          exact fun he => hk (eq_of_beq he).symm
      · rw [if_neg fun hn => hk hn.1]
        rfl
  · rw [if_neg fun hn => hp hn.1, if_neg fun hn => hp hn.2]
    rfl

/-- **A key is watched no longer afterwards**; nothing else has changed. -/
theorem Orderly.watchesFor_unwatch (h : s.Orderly place) (hc : s.calls n = some (.unwatch v l))
    (k p : String) :
    (s.unwatch v l).watchesFor k p = if k = v.key then [] else s.watchesFor k p := by
  obtain ⟨hpath, _, hnil, i, hl⟩ := h.visiting n _ v hc rfl
  have hheld := h.holds_of_inside hc rfl rfl
  show ((s.server.tree.unwatch v.path l).watchesAt p).filter (·.listener.isFor s.core.id k) = _
  rw [Tree.watchesAt_unwatch, hpath]
  by_cases hk : k = v.key
  · rw [hk, if_pos rfl]
    rcases h.watched v.key p with hnone | ⟨hp, j, hj, hb⟩
    · split
      · next hp =>
        rw [← hp, List.filter_comm]
        exact (congrArg _ hnone).trans List.filter_nil
      · exact hnone
    · -- the key has no consumers, so the watch is the one that this call takes down
      have hij : l = s.core.listener v.key j := by
        rcases hb with hb | ⟨m, w, hm⟩
        · exact absurd hnil ((h.listed v.key).1 ((hasListener_iff _ _).2 ⟨j, hb⟩))
        · have hmn := h.unique hm hc rfl rfl (h.holds_of_inside hm rfl rfl) hheld
            (h.key_of_unwatch hm)
          subst hmn
          rw [hc] at hm
          injection hm with hm
          injection hm
      rw [if_pos hp, ← hp, List.filter_comm]
      refine (congrArg _ hj).trans ?_
      rw [← hij, List.filter_cons_of_neg (by simp), List.filter_nil]
  · rw [if_neg hk]
    split
    · next hp =>
      rw [hp, List.filter_filter]
      refine List.filter_congr fun w _ => ?_
      by_cases hw : w.listener = l
      · rw [hw, hl, isFor_listener, beq_eq_false_iff_ne.2 (Ne.symm hk)]
        rfl
      · rw [bne_iff_ne.2 hw, Bool.and_true]
    · rfl

/-- A call that has its lock and keeps the consumers of its key and the listener goes on. -/
theorem Orderly.proceed (h : s.Orderly place) (hc : s.calls n = some c) (hv : c.visit? = some v)
    {server : Tree.Server} {d : Nodes.Call} (hd : d.visit? = some v)
    (hheld : s.core.locks.holds v.ticket = true) (hphase : s.core.Phase d)
    (hopen : server.isClosed s.registry.session = false)
    (hother : ∀ k p, k ≠ v.key →
      ({ s with server } : Interplay).watchesFor k p = s.watchesFor k p)
    (hwatched : ∀ p, (({ s with server } : Interplay).take n (s.registry.goOn d)).Watched place
      v.key p) : (({ s with server } : Interplay).take n (s.registry.goOn d)).Orderly place := by
  refine h.advance hc hv (d := some d) rfl rfl rfl hopen h.locks (fun x hx _ => hx) rfl ?_
    (fun k hk => ⟨rfl, rfl, fun p => hother k p hk⟩) hheld (h.nodup v.key) (h.listed v.key)
    hwatched
  rintro c' hc'
  cases hc'
  obtain ⟨x, hx, hxt, hxk, hxh⟩ := h.heldClaim hc hv hheld
  exact ⟨hd, (h.visiting n c v hc hv).path, ⟨x, hx, hxt, hxk, fun _ => hxh⟩, hphase⟩

/-- **A call has its key watched.** -/
theorem Orderly.watch (h : s.Orderly place) (hc : s.calls n = some (.watch v l)) :
    (s.watch n v l).Orderly place := by
  obtain ⟨_, _, hmem, i, hi, hl⟩ := h.visiting n _ v hc rfl
  have hheld := h.holds_of_inside hc rfl rfl
  have hw := h.watchesFor_watch hc
  refine h.proceed hc rfl rfl hheld hmem h.isOpen (fun k p hk => ?_) fun p => ?_
  · exact (hw k p).trans (if_neg fun hn => hk hn.1)
  · by_cases hp : p = place v.key
    · refine .inr ⟨hp, i, ((hw v.key p).trans (if_pos ⟨rfl, hp⟩)).trans ?_, .inl hi⟩
      rw [hl]
      rfl
    · have hsame := (hw v.key p).trans (if_neg fun hn => hp hn.2)
      rcases h.watched v.key p with hnil | ⟨hp', _⟩
      · exact .inl (hsame.trans hnil)
      · exact absurd hp' hp

theorem Orderly.find (h : s.Orderly place) (hc : s.calls n = some (.read v)) (data : Payload) :
    (s.find n v data).Orderly place := by
  have hheld := h.holds_of_inside hc rfl rfl
  refine h.proceed hc rfl rfl hheld (h.visiting n _ v hc rfl).phase h.isOpen (fun _ _ _ => rfl)
    fun p => ?_
  rcases h.watched v.key p with hnil | ⟨hp, i, hi, hb⟩
  · exact .inl hnil
  · exact .inr ⟨hp, i, hi, .inl (h.backed_own hc rfl hheld (fun l hl => nomatch hl) hb)⟩

theorem Orderly.hearing (h : s.Orderly place) (new : List Notice) :
    (s.hearing new).Orderly place :=
  h.frame (m := s.core.roster.meter) rfl (fun _ _ _ _ => .rfl) (fun _ _ => rfl) h.isOpen

/-- **A call takes a watch down**, while it is still in progress. -/
theorem Orderly.unwatch (h : s.Orderly place) (hc : s.calls n = some (.unwatch v l)) :
    (s.unwatch v l).Orderly place := by
  have hw := h.watchesFor_unwatch hc
  refine h.advance hc rfl (d := some (.unwatch v l)) rfl rfl rfl h.isOpen h.locks
    (fun x hx _ => hx) (by rw [← hc, Function.update_eq_self]; rfl) ?_ ?_
    (h.holds_of_inside hc rfl rfl) (h.nodup v.key) (h.listed v.key) fun p => ?_
  · rintro c' hc'
    cases hc'
    exact ⟨rfl, h.visiting n _ v hc rfl⟩
  · exact fun k hk => ⟨rfl, rfl, fun p => (hw k p).trans (if_neg hk)⟩
  · exact .inl ((hw v.key p).trans (if_pos rfl))

/-! ### The beginning of a call -/

/-- **A call lines up.**  Its ticket is new. -/
theorem Orderly.line (h : s.Orderly place) (hfree : s.calls n = none)
    {call : Visit → Nodes.Call} (hcall : call = .enter ∨ call = .enterOut) (k : String)
    (a : Consumer) : (s.line n call k (place k) a).Orderly place := by
  have hout : (call (s.core.lineUp k (place k) a).2).inside = false ∧
      ∀ x, (call x).visit? = some x ∧ ∀ k : Core, k.Phase (call x) := by
    rcases hcall with rfl | rfl <;> exact ⟨rfl, fun _ => ⟨rfl, fun _ => trivial⟩⟩
  generalize ht : s.line n call k (place k) a = t
  have hlocks : t.core.locks = (s.core.locks.request k).1 := by rw [← ht]; rfl
  have hvisit : (s.core.lineUp k (place k) a).2 = ⟨k, place k, a, s.core.locks.nextTicket⟩ := rfl
  have hcalls : ∀ m c, t.calls m = some c →
      (m = n ∧ c = call ⟨k, place k, a, s.core.locks.nextTicket⟩) ∨
        (m ≠ n ∧ s.calls m = some c) := by
    intro m c hm
    rw [← ht] at hm
    change Function.update s.calls n (some (call (s.core.lineUp k (place k) a).2)) m = some c at hm
    rw [Function.update_apply] at hm
    split at hm
    · next hmn => exact .inl ⟨hmn, (Option.some.inj hm).symm⟩
    · next hmn => exact .inr ⟨hmn, hm⟩
  have hlt : ∀ m c v, s.calls m = some c → c.visit? = some v →
      v.ticket < s.core.locks.nextTicket := by
    intro m c v hm hv
    obtain ⟨x, hx, hxt, _⟩ := (h.visiting m c v hm hv).claim
    exact hxt ▸ h.locks.ticket_lt x hx
  have hmono : ∀ x ∈ s.core.locks.claims, x ∈ t.core.locks.claims := by
    intro x hx
    rw [hlocks]
    exact (Locks.mem_claims_request h.locks).2 (.inl hx)
  subst ht
  refine ⟨h.kind, h.isOpen, h.locks.request k, h.nodup, h.listed, ?_, ?_, fun k p => ?_⟩
  · intro m m' c c' v v' hm hm' hv hv' htt
    rcases hcalls m c hm with ⟨rfl, rfl⟩ | ⟨_, hs⟩ <;>
      rcases hcalls m' c' hm' with ⟨rfl, rfl⟩ | ⟨_, hs'⟩
    · rfl
    · have := hlt m' c' v' hs' hv'
      rw [(hout.2 _).1] at hv
      cases hv
      exact absurd this (htt ▸ Nat.lt_irrefl _)
    · have := hlt m c v hs hv
      rw [(hout.2 _).1] at hv'
      cases hv'
      exact absurd this (htt ▸ Nat.lt_irrefl _)
    · exact h.ticket m m' c c' v v' hs hs' hv hv' htt
  · intro m c v hm hv
    rcases hcalls m c hm with ⟨rfl, rfl⟩ | ⟨_, hs⟩
    · rw [(hout.2 _).1] at hv
      cases hv
      refine ⟨rfl, ⟨s.core.locks.newClaim k, ?_, rfl, rfl, fun hi => ?_⟩, (hout.2 _).2 _⟩
      · rw [hlocks]
        exact (Locks.mem_claims_request h.locks).2 (.inr rfl)
      · exact nomatch hout.1.symm.trans hi
    · obtain ⟨hp, ⟨x, hx, hxs⟩, hph⟩ := h.visiting m c v hs hv
      exact ⟨hp, ⟨x, hmono x hx, hxs⟩, Core.Phase.of_same hph hv rfl rfl rfl⟩
  · rcases h.watched k p with hnil | ⟨hp, i, hi, hb⟩
    · exact .inl hnil
    · refine .inr ⟨hp, i, hi, hb.imp id ?_⟩
      rintro ⟨m, v, hm⟩
      refine ⟨m, v, ?_⟩
      have hmn : m ≠ n := by
        rintro rfl
        exact nomatch hfree.symm.trans hm
      exact (Function.update_of_ne hmn _ _).trans hm

/-! ### Any move -/

theorem Orderly.beside (h : s.Orderly place) {s' : Interplay} (hb : s.Beside s') :
    s'.Orderly place := by
  obtain ⟨m, hm⟩ := hb.registry
  exact h.frame hm hb.calls hb.watches (hb.isClosed.trans h.isOpen)

/-- A call that has released its watch ends. -/
theorem Orderly.release (h : s.Orderly place) {v : Visit} {l : Listener}
    (hc : s.calls n = some (.unwatch v l)) (m : Meter) :
    ((s.unwatch v l).leave n v m).Orderly place := by
  refine (h.unwatch hc).leave hc rfl (h.holds_of_inside hc rfl rfl) (fun l hl p => ?_) m
  exact (h.watchesFor_unwatch hc _ p).trans (if_pos rfl)

/-- **Each effect keeps an interplay orderly.** -/
theorem Orderly.effect (h : s.Orderly place) {m : Move} {s' : Interplay}
    (he : Effect place s m s') : s'.Orderly place := by
  cases he with
  | beside hb => exact h.beside hb
  | lineIn hfree _ => exact h.line hfree (.inl rfl) _ _
  | lineOut hfree => exact h.line hfree (.inr rfl) _ _
  | look => exact h.look _
  | enter hc hh => exact (h.look _).enter hc hh
  | enterOut hc hh => exact (h.look _).enterOut hc hh
  | watch hc => exact h.watch hc
  | find hc _ _ => exact h.find hc _
  | miss hc _ =>
    exact h.leave hc rfl (h.holds_of_inside hc rfl rfl) (fun l hl => nomatch hl) _
  | hand hc =>
    exact (h.hearing _).leave hc rfl (h.holds_of_inside hc rfl rfl) (fun l hl => nomatch hl) _
  | unwatch hc => exact h.release hc _
  | broken hc hcall =>
    rcases hcall with ⟨l, rfl⟩ | rfl
    · exact h.leave hc rfl (h.holds_of_inside hc rfl rfl) (fun l hl => nomatch hl) _
    · exact h.leave hc rfl (h.holds_of_inside hc rfl rfl) (fun l hl => nomatch hl) _

/-- **Each move keeps an interplay orderly.** -/
theorem Orderly.step (h : s.Orderly place) {m : Move} (hm : m.Placed place) {s' : Interplay}
    (hs : s.step m = some s') : s'.Orderly place :=
  h.effect (h.step_effect hm hs)

/-- **An interplay stays orderly**, whatever moves are made. -/
theorem Orderly.run (h : s.Orderly place) {ms : List Move} {s' : Interplay}
    (hms : ∀ m ∈ ms, m.Placed place) (hs : s.run ms = some s') : s'.Orderly place :=
  (throughout_true ms s).keeps (fun h _ hm ht => h.step hm ht) h hms hs

theorem orderly_begin {conduct : Conduct} {v : Tree.Server} {id : Nat} {session : Tree.SessionId}
    (hopen : v.isClosed session = false)
    (hnew : ∀ p, ∀ w ∈ v.tree.watchesAt p, w.listener.isOf id = false) :
    (begin conduct v id session).Orderly place where
  kind := rfl
  isOpen := hopen
  locks := Locks.sound_empty
  nodup _ := List.nodup_nil
  listed _ := iff_of_false Bool.false_ne_true (absurd rfl)
  ticket _ _ _ _ _ _ hn := nomatch hn
  visiting _ _ _ hn := nomatch hn
  watched k p := by
    refine .inl (List.filter_eq_nil_iff.2 fun w hw hf => ?_)
    exact nomatch (isOf_of_isFor hf).symm.trans (hnew p w hw)

end Interplay

end Discovery.Registry
