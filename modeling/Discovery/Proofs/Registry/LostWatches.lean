import Discovery.Proofs.Registry.OneWatch
import Mathlib.Data.List.Perm.Subperm

/-!
# Watches that are lost

A call that takes down a listener forgets it first.  If its request to release the watch fails, the
watch stays on the tree, and nobody takes it off any more: its listener is lost.  Without the
watches of lost listeners, an interplay is orderly all the same (`Littered`), so each failed release
costs one watch and no more.

* `attempt`, `attempts`: one move, and a list of moves, where the release of a watch may fail too.
* `Littered.attempt`: each of these moves keeps an interplay orderly but for the lost listeners.
* `Littered.length_watchesOf_le`: how many watches of the registry there are for a key.
-/

namespace Discovery.Registry

open Discovery.Tree (Request Reply)

namespace Interplay

variable {place : String → String} {s s' : Interplay} {lost : List Listener} {m : Move} {n : Nat}
  {v : Visit} {l : Listener} {k p : String}

/-! ### Moves -/

/-- One move, where the release of a watch may fail too, with the listeners that are lost so far. -/
def attempt (x : Interplay × List Listener) (m : Move) : Option (Interplay × List Listener) :=
  match m with
  | .fail n why =>
    match x.1.calls n with
    | some (.unwatch v l) =>
      some (x.1.take n (x.1.registry.resume (.unwatch v l) (.answered (.failed why))), x.2 ++ [l])
    | _ => (x.1.step m).map (·, x.2)
  | _ => (x.1.step m).map (·, x.2)

def attempts (x : Interplay × List Listener) (ms : List Move) :
    Option (Interplay × List Listener) :=
  ms.foldlM attempt x

/-- What a move comes to, and who is lost by it. -/
inductive Attempt (place : String → String) (s : Interplay) (lost : List Listener) (m : Move) :
    Interplay → List Listener → Prop where
  | effect {s' : Interplay} (h : Effect place s m s') : Attempt place s lost m s' lost
  /-- A call cannot release a watch, and ends. -/
  | strand {n : Nat} {v : Visit} {l : Listener} (u : Meter)
      (hc : s.calls n = some (.unwatch v l)) :
      Attempt place s lost m (s.leave n v u) (lost ++ [l])

theorem Grounded.attempt_spec (h : s.Grounded) {x : Interplay × List Listener}
    (hm : m.Placed place) (hx : attempt (s, lost) m = some x) :
    Attempt place s lost m x.1 x.2 := by
  have hstep : (s.step m).map (·, lost) = some x → Attempt place s lost m x.1 x.2 := by
    intro hx
    obtain ⟨t, ht, rfl⟩ := Option.map_eq_some_iff.1 hx
    exact .effect (h.step_effect hm ht)
  cases m with
  | fail n why =>
    dsimp only [attempt] at hx
    split at hx
    · next v l hc =>
      obtain rfl := Option.some.inj hx
      exact .strand _ hc
    · exact hstep hx
  | _ => exact hstep hx

/-! ### Serial numbers -/

/-- The registry keeps none of the listeners that are lost, and will not make them again. -/
structure Numbered (s : Interplay) (lost : List Listener) : Prop where
  kept : ∀ k i, s.core.listeners.get? k = some i → i < s.core.nextSerial
  leaving : ∀ n v l, s.calls n = some (.unwatch v l) →
    ∃ i < s.core.nextSerial, l = s.core.listener v.key i
  spent : ∀ l ∈ lost, ∃ k, ∃ i < s.core.nextSerial,
    l = s.core.listener k i ∧ s.core.listeners.get? k ≠ some i

theorem Numbered.not_mem (h : s.Numbered lost) {i : Nat} (hi : s.core.listeners.get? k = some i) :
    s.core.listener k i ∉ lost := by
  intro hmem
  obtain ⟨a, j, _, he, hj⟩ := h.spent _ hmem
  obtain ⟨rfl, rfl⟩ := Core.listener_inj he
  exact hj hi

/-- What counts is the listeners that the registry keeps, and the calls that take one down. -/
theorem Numbered.frame (h : s.Numbered lost) (hid : s'.core.id = s.core.id)
    (hserial : s'.core.nextSerial = s.core.nextSerial)
    (hlist : s'.core.listeners = s.core.listeners)
    (hcalls : ∀ n v l, s'.calls n = some (.unwatch v l) → s.calls n = some (.unwatch v l)) :
    s'.Numbered lost := by
  refine ⟨fun k i hi => ?_, fun n v l hn => ?_, fun l hl => ?_⟩
  · rw [hlist] at hi
    rw [hserial]
    exact h.kept k i hi
  · rw [hserial]
    simp only [listener_congr hid]
    exact h.leaving n v l (hcalls n v l hn)
  · rw [hserial, hlist]
    simp only [listener_congr hid]
    exact h.spent l hl

def releases : Nodes.Call → Bool
  | .unwatch _ _ => true
  | _ => false

theorem call_of_take {st : Step Nodes Nodes.Call} (hst : st.call.any releases = false)
    (n' : Nat) (v : Visit) (l : Listener) (hn : (s.take n st).calls n' = some (.unwatch v l)) :
    s.calls n' = some (.unwatch v l) := by
  change Function.update s.calls n st.call n' = _ at hn
  rw [Function.update_apply] at hn
  split at hn
  · rw [hn] at hst
    cases hst
  · exact hn

theorem Numbered.enter (h : s.Numbered lost) : (s.letIn n (.enter v)).Numbered lost := by
  have hcalls : ∀ n' w l, (s.letIn n (.enter v)).calls n' = some (.unwatch w l) →
      s.calls n' = some (.unwatch w l) := call_of_take rfl
  cases hi : s.core.listeners.get? v.key with
  | some i =>
    have hcore : (s.letIn n (.enter v)).core = s.core.attach v := by
      show (Nodes.listenerFor (s.core.attach v) v.key).1 = _
      unfold Nodes.listenerFor
      rw [show (s.core.attach v).listeners.get? v.key = some i from hi]
    exact h.frame (by rw [hcore]; rfl) (by rw [hcore]; rfl) (by rw [hcore]; rfl) hcalls
  | none =>
    have hcore : (s.letIn n (.enter v)).core = ((s.core.attach v).makeListener v.key).1 := by
      show (Nodes.listenerFor (s.core.attach v) v.key).1 = _
      unfold Nodes.listenerFor
      rw [show (s.core.attach v).listeners.get? v.key = none from hi]
    -- the new listener has a serial number that no listener had before
    refine ⟨fun k i hk => ?_, fun n' w l hn => ?_, fun l hl => ?_⟩
    · rw [hcore] at hk ⊢
      change (s.core.listeners.insert v.key s.core.nextSerial).get? k = some i at hk
      rw [Table.get?_insert] at hk
      split at hk
      · exact Option.some.inj hk ▸ Nat.lt_succ_self _
      · exact Nat.lt_succ_of_lt (h.kept k i hk)
    · obtain ⟨i, hi, he⟩ := h.leaving n' w l (hcalls n' w l hn)
      rw [hcore]
      exact ⟨i, Nat.lt_succ_of_lt hi, he⟩
    · obtain ⟨k, i, hi, he, hne⟩ := h.spent l hl
      rw [hcore]
      refine ⟨k, i, Nat.lt_succ_of_lt hi, he, ?_⟩
      show (s.core.listeners.insert v.key s.core.nextSerial).get? k ≠ some i
      rw [Table.get?_insert]
      split
      · exact fun h' => Nat.lt_irrefl _ (Option.some.inj h' ▸ hi)
      · exact hne

theorem Numbered.enterOut (h : s.Numbered lost) : (s.letIn n (.enterOut v)).Numbered lost := by
  unfold letIn Nodes.admitted
  dsimp only
  split
  · exact h.frame rfl rfl rfl (call_of_take rfl)
  · unfold Core.forgetListener
    cases hi : (s.core.detach v).listeners.get? v.key with
    | none => exact h.frame rfl rfl rfl (call_of_take rfl)
    | some i =>
      refine ⟨fun k j hk => ?_, fun n' w l hn => ?_, fun l hl => ?_⟩
      · change (s.core.listeners.erase v.key).get? k = some j at hk
        rw [Table.get?_erase] at hk
        split at hk
        · exact nomatch hk
        · exact h.kept k j hk
      · change Function.update s.calls n (some (.unwatch v (s.core.listener v.key i))) n' = _ at hn
        rw [Function.update_apply] at hn
        split at hn
        · cases hn
          exact ⟨i, h.kept v.key i hi, rfl⟩
        · exact h.leaving n' w l hn
      · obtain ⟨k, j, hj, he, hne⟩ := h.spent l hl
        refine ⟨k, j, hj, he, ?_⟩
        show (s.core.listeners.erase v.key).get? k ≠ some j
        rw [Table.get?_erase]
        split
        · exact nofun
        · exact hne

theorem Numbered.effect (h : s.Numbered lost) (he : Effect place s m s') : s'.Numbered lost := by
  cases he with
  | beside hb =>
    obtain ⟨m, hm⟩ := hb.registry
    refine h.frame ?_ ?_ ?_ fun n v l => (hb.calls n _ v rfl).1 <;> rw [core, hm] <;> rfl
  | lineIn => exact h.frame rfl rfl rfl (call_of_take rfl)
  | lineOut => exact h.frame rfl rfl rfl (call_of_take rfl)
  | look => exact h.frame rfl rfl rfl fun _ _ _ hn => hn
  | @enter n v =>
    have hlook : (s.look v.ticket).Numbered lost := h.frame rfl rfl rfl fun _ _ _ hn => hn
    exact hlook.enter
  | @enterOut n v =>
    have hlook : (s.look v.ticket).Numbered lost := h.frame rfl rfl rfl fun _ _ _ hn => hn
    exact hlook.enterOut
  | watch => exact h.frame rfl rfl rfl (call_of_take rfl)
  | find => exact h.frame rfl rfl rfl (call_of_take rfl)
  | miss => exact h.frame rfl rfl rfl (call_of_take rfl)
  | hand => exact h.frame rfl rfl rfl (call_of_take rfl)
  | unwatch => exact h.frame rfl rfl rfl (call_of_take rfl)
  | broken => exact h.frame rfl rfl rfl (call_of_take rfl)

theorem Numbered.strand (h : s.Numbered lost) (hc : s.calls n = some (.unwatch v l))
    (hnone : s.core.listeners.get? v.key = none) (m : Meter) :
    (s.leave n v m).Numbered (lost ++ [l]) := by
  have h' : (s.leave n v m).Numbered lost := h.frame rfl rfl rfl (call_of_take rfl)
  refine ⟨h'.kept, h'.leaving, fun x hx => ?_⟩
  rcases List.mem_append.1 hx with hx | hx
  · exact h'.spent x hx
  · obtain ⟨i, hi, he⟩ := h.leaving n v l hc
    refine ⟨v.key, i, hi, (List.mem_singleton.1 hx).trans he, fun hk => ?_⟩
    exact nomatch hnone.symm.trans hk

/-! ### Without the watches of lost listeners -/

/-- The interplay as it would be without the watches of some listeners. -/
def without (s : Interplay) (lost : List Listener) : Interplay :=
  { s with server.tree.watches := (s.server.tree.watches.filterMap fun _ ws =>
      some (ws.filter fun w => !lost.contains w.listener)) }

theorem watchesAt_without (s : Interplay) (lost : List Listener) (p : String) :
    (s.without lost).server.tree.watchesAt p =
      (s.server.tree.watchesAt p).filter fun w => !lost.contains w.listener := by
  unfold without Tree.watchesAt Table.getD
  dsimp only
  rw [Table.get?_filterMap]
  cases s.server.tree.watches.get? p <;> rfl

theorem watchesFor_without (s : Interplay) (lost : List Listener) (k p : String) :
    (s.without lost).watchesFor k p =
      (s.watchesFor k p).filter fun w => !lost.contains w.listener := by
  unfold watchesFor
  rw [watchesAt_without]
  exact List.filter_comm ..

theorem watchesFor_watch (s : Interplay) (n : Nat) (v : Visit) (l : Listener) (k p : String) :
    (s.watch n v l).watchesFor k p =
      if p = v.path ∧ ¬ (s.server.tree.watchesAt v.path).any (·.listener == l) then
        s.watchesFor k v.path ++ if l.isFor s.core.id k then [⟨s.registry.session, l⟩] else []
      else s.watchesFor k p := by
  show ((s.server.tree.watch s.registry.session v.path l).watchesAt p).filter
    (·.listener.isFor s.core.id k) = _
  rw [Tree.watchesAt_watch]
  split
  · rw [List.filter_append, List.filter_singleton, Bool.cond_eq_ite]
    rfl
  · rfl

theorem watchesFor_unwatch (s : Interplay) (v : Visit) (l : Listener) (k p : String) :
    (s.unwatch v l).watchesFor k p =
      if p = v.path then (s.watchesFor k p).filter (·.listener != l) else s.watchesFor k p := by
  show ((s.server.tree.unwatch v.path l).watchesAt p).filter (·.listener.isFor s.core.id k) = _
  rw [Tree.watchesAt_unwatch]
  split
  · next hp =>
    subst hp
    exact List.filter_comm ..
  · rfl

/-- **An interplay that is orderly but for the watches of lost listeners.** -/
structure Littered (place : String → String) (s : Interplay) (lost : List Listener) : Prop where
  clean : (s.without lost).Orderly place
  numbered : s.Numbered lost
  placed : ∀ k p, ∀ w ∈ s.watchesFor k p, p = place k ∧ w.session = s.registry.session
  nodup : ∀ k p, ((s.watchesFor k p).map (·.listener)).Nodup

theorem Littered.grounded (h : s.Littered place lost) : s.Grounded where
  kind := h.clean.kind
  isOpen := h.clean.isOpen
  own k p w hw := (h.placed k p w hw).2

theorem Orderly.of_watches (h : s.Orderly place) (hr : s'.registry = s.registry)
    (hc : s'.calls = s.calls) (hw : ∀ k p, s'.watchesFor k p = s.watchesFor k p)
    (ho : s'.server.isClosed s.registry.session = false) : s'.Orderly place :=
  h.frame (m := s.core.roster.meter) hr (fun _ _ _ _ => by rw [hc]) hw ho

theorem Littered.of_sublist (h : s.Littered place lost) {lost' : List Listener}
    (hclean : (s'.without lost').Orderly place) (hnumbered : s'.Numbered lost')
    (hsession : s'.registry.session = s.registry.session)
    (hw : ∀ k p, (s'.watchesFor k p).Sublist (s.watchesFor k p)) : s'.Littered place lost' where
  clean := hclean
  numbered := hnumbered
  placed k p w hmem := by
    rw [hsession]
    exact h.placed k p w ((hw k p).subset hmem)
  nodup k p := (h.nodup k p).sublist ((hw k p).map _)

/-! ### Moves -/

theorem watchesFor_watch_without (hkept : l ∉ lost) (k p : String) :
    ((s.watch n v l).without lost).watchesFor k p =
      ((s.without lost).watch n v l).watchesFor k p := by
  have hany : ((s.without lost).server.tree.watchesAt v.path).any (·.listener == l) =
      (s.server.tree.watchesAt v.path).any (·.listener == l) := by
    rw [watchesAt_without, List.any_filter, Bool.eq_iff_iff, List.any_eq_true, List.any_eq_true]
    refine exists_congr fun w => and_congr_right fun _ => ?_
    rw [Bool.and_eq_true, and_iff_right_iff_imp, Bool.not_eq_true', Bool.eq_false_iff]
    exact fun hw hmem => hkept (eq_of_beq hw ▸ List.contains_iff_mem.1 hmem)
  rw [watchesFor_without, watchesFor_watch, watchesFor_watch, hany]
  split
  · rw [List.filter_append, watchesFor_without]
    congr 1
    show _ = if l.isFor s.core.id k = true then _ else _
    split
    · rw [List.filter_cons_of_pos, List.filter_nil]
      · rfl
      · rw [Bool.not_eq_true', Bool.eq_false_iff]
        exact fun hmem => hkept (List.contains_iff_mem.1 hmem)
    · rfl
  · rw [watchesFor_without]

theorem Littered.nodup_watch (h : s.Littered place lost) (n : Nat) (v : Visit) (l : Listener)
    (k p : String) : (((s.watch n v l).watchesFor k p).map (·.listener)).Nodup := by
  rw [watchesFor_watch]
  split
  · next hp =>
    rw [List.map_append, List.nodup_append]
    refine ⟨h.nodup k v.path, ?_, fun a ha b hb hab => hp.2 ?_⟩
    · split <;> simp
    · obtain ⟨w, hw, rfl⟩ := List.mem_map.1 ha
      have hbl : b = l := by
        split at hb
        · exact List.mem_singleton.1 hb
        · exact nomatch hb
      exact List.any_eq_true.2 ⟨w, (List.mem_filter.1 hw).1, beq_iff_eq.2 (hab.trans hbl)⟩
  · exact h.nodup k p

theorem Littered.watch (h : s.Littered place lost) (hc : s.calls n = some (.watch v l)) :
    (s.watch n v l).Littered place lost := by
  obtain ⟨hpath, _, _, i, hi, hl⟩ := h.clean.visiting n _ v hc rfl
  refine ⟨(h.clean.watch hc).of_watches rfl rfl
      (watchesFor_watch_without (hl ▸ h.numbered.not_mem hi)) h.clean.isOpen,
    h.numbered.frame rfl rfl rfl (call_of_take rfl), fun k p w hw => ?_, h.nodup_watch n v l⟩
  rw [watchesFor_watch] at hw
  split at hw
  · next hp =>
    rcases List.mem_append.1 hw with hold | hnew
    · exact hp.1 ▸ h.placed k v.path w hold
    · split at hnew
      · next hk =>
        rw [hl] at hk
        have hkey := eq_of_beq ((isFor_listener s.core v.key k i).symm.trans hk)
        obtain rfl := List.mem_singleton.1 hnew
        exact ⟨hkey ▸ hp.1.trans hpath, rfl⟩
      · exact nomatch hnew
  · exact h.placed k p w hw

theorem Littered.effect (h : s.Littered place lost) (he : Effect place s m s') :
    s'.Littered place lost := by
  have hn := h.numbered.effect he
  have hstay : (s'.without lost).Orderly place →
      s'.registry.session = s.registry.session →
      (∀ k p, s'.watchesFor k p = s.watchesFor k p) → s'.Littered place lost :=
    fun hclean hsession hw =>
      h.of_sublist hclean hn hsession fun k p => hw k p ▸ List.Sublist.refl _
  have hsession := he.registry.2
  cases he with
  | beside hb =>
    obtain ⟨m, hm⟩ := hb.registry
    refine hstay (h.clean.frame (m := m) hm hb.calls (fun k p => ?_)
      (hb.isClosed.trans h.clean.isOpen)) hsession hb.watches
    rw [watchesFor_without, watchesFor_without, hb.watches]
  | lineIn hfree _ => exact hstay (h.clean.line hfree (.inl rfl) _ _) hsession fun _ _ => rfl
  | lineOut hfree => exact hstay (h.clean.line hfree (.inr rfl) _ _) hsession fun _ _ => rfl
  | look => exact hstay (h.clean.look _) hsession fun _ _ => rfl
  | enter hc hh =>
    exact hstay ((h.clean.look _).enter hc hh) hsession fun k p => watchesFor_letIn _ _ _ k p
  | enterOut hc hh =>
    exact hstay ((h.clean.look _).enterOut hc hh) hsession fun k p => watchesFor_letIn _ _ _ k p
  | watch hc => exact h.watch hc
  | find hc _ _ => exact hstay (h.clean.find hc _) hsession fun _ _ => rfl
  | miss hc _ =>
    exact hstay (h.clean.leave hc rfl (h.clean.holds_of_inside hc rfl rfl)
      (fun l hl => nomatch hl) _) hsession fun _ _ => rfl
  | @hand n v data m hc =>
    exact hstay ((h.clean.hearing (s.handed v data)).leave hc rfl
      (h.clean.holds_of_inside hc rfl rfl) (fun l hl => nomatch hl) _) hsession fun _ _ => rfl
  | @unwatch n v l m hc =>
    refine h.of_sublist ((h.clean.release hc m).of_watches rfl rfl (fun k p => ?_)
      h.clean.isOpen) hn hsession fun k p => ?_
    · show ((s.unwatch v l).without lost).watchesFor k p =
        ((s.without lost).unwatch v l).watchesFor k p
      rw [watchesFor_without, watchesFor_unwatch, watchesFor_unwatch, watchesFor_without]
      split
      · exact List.filter_comm ..
      · rfl
    · show ((s.unwatch v l).watchesFor k p).Sublist _
      rw [watchesFor_unwatch]
      split
      · exact List.filter_sublist
      · exact List.Sublist.refl _
  | broken hc hcall =>
    rcases hcall with ⟨l, rfl⟩ | rfl
    · exact hstay (h.clean.leave hc rfl (h.clean.holds_of_inside hc rfl rfl)
        (fun l hl => nomatch hl) _) hsession fun _ _ => rfl
    · exact hstay (h.clean.leave hc rfl (h.clean.holds_of_inside hc rfl rfl)
        (fun l hl => nomatch hl) _) hsession fun _ _ => rfl

/-- **A release that fails costs one watch**: without that, the interplay is orderly. -/
theorem Littered.strand (h : s.Littered place lost) (hc : s.calls n = some (.unwatch v l))
    (m : Meter) : (s.leave n v m).Littered place (lost ++ [l]) := by
  obtain ⟨hpath, _, hnil, i, hl⟩ := h.clean.visiting n _ v hc rfl
  change l = s.core.listener v.key i at hl
  have hnone : s.core.listeners.get? v.key = none := by
    cases hi : s.core.listeners.get? v.key with
    | none => rfl
    | some i => exact absurd hnil ((h.clean.listed v.key).1 ((hasListener_iff _ _).2 ⟨i, hi⟩))
  refine h.of_sublist ((h.clean.release hc m).of_watches rfl rfl (fun k p => ?_) h.clean.isOpen)
    (h.numbered.strand hc hnone m) rfl fun k p => List.Sublist.refl _
  show (s.without (lost ++ [l])).watchesFor k p = ((s.without lost).unwatch v l).watchesFor k p
  have hsplit : (s.without (lost ++ [l])).watchesFor k p =
      ((s.without lost).watchesFor k p).filter (·.listener != l) := by
    rw [watchesFor_without, watchesFor_without, List.filter_filter]
    refine List.filter_congr fun w _ => ?_
    by_cases hw : w.listener = l <;> simp [hw]
  rw [hsplit, watchesFor_unwatch]
  split
  · rfl
  · next hp =>
    -- the watch that is lost is at the place of its key
    refine List.filter_eq_self.2 fun w hw => bne_iff_ne.2 fun hwl => hp ?_
    rw [watchesFor_without] at hw
    have hw := (List.mem_filter.1 hw).1
    have hk : (s.core.listener v.key i).isFor s.core.id k = true := by
      rw [← hl, ← hwl]
      exact (List.mem_filter.1 hw).2
    obtain rfl := eq_of_beq ((isFor_listener s.core v.key k i).symm.trans hk)
    exact (h.placed v.key p w hw).1.trans hpath.symm

/-- **Each move keeps an interplay orderly but for the lost listeners.** -/
theorem Littered.attempt (h : s.Littered place lost) {x : Interplay × List Listener}
    (hm : m.Placed place) (hx : attempt (s, lost) m = some x) :
    x.1.Littered place x.2 ∧ x.1.core.id = s.core.id := by
  have hspec := h.grounded.attempt_spec hm hx
  obtain ⟨t, lost'⟩ := x
  cases hspec with
  | effect he => exact ⟨h.effect he, he.registry.1⟩
  | strand u hc => exact ⟨h.strand hc u, rfl⟩

theorem Littered.attempts {ms : List Move} {x : Interplay × List Listener}
    (h : s.Littered place lost) (hms : ∀ m ∈ ms, m.Placed place)
    (hx : attempts (s, lost) ms = some x) :
    x.1.Littered place x.2 ∧ x.1.core.id = s.core.id := by
  induction ms generalizing s lost with
  | nil => exact Option.some.inj hx ▸ ⟨h, rfl⟩
  | cons m ms ih =>
    obtain ⟨⟨t, lost'⟩, ht, hx⟩ := Option.bind_eq_some_iff.1 hx
    obtain ⟨ht, hid⟩ := h.attempt (hms m List.mem_cons_self) ht
    obtain ⟨hx, hid'⟩ := ih ht (fun a ha => hms a (List.mem_cons_of_mem _ ha)) hx
    exact ⟨hx, hid'.trans hid⟩

theorem littered_begin {conduct : Conduct} {v : Tree.Server} {id : Nat}
    {session : Tree.SessionId} (hopen : v.isClosed session = false)
    (hnew : ∀ p, ∀ w ∈ v.tree.watchesAt p, w.listener.isOf id = false) :
    (begin conduct v id session).Littered place [] := by
  have hnil : ∀ k p, (begin conduct v id session).watchesFor k p = [] := fun k p =>
    List.filter_eq_nil_iff.2 fun w hw hf => nomatch (isOf_of_isFor hf).symm.trans (hnew p w hw)
  have h₀ : (begin conduct v id session).Orderly place := orderly_begin hopen hnew
  refine ⟨h₀.of_watches rfl rfl (fun k p => ?_) hopen,
    ⟨nofun, nofun, nofun⟩, fun k p w hw => ?_, fun k p => ?_⟩
  · rw [watchesFor_without, hnil]
    rfl
  · rw [hnil] at hw
    exact nomatch hw
  · rw [hnil]
    exact List.nodup_nil

/-! ### How many watches there are -/

/-- **Each lost listener of a key costs one watch**, and besides those there is at most one. -/
theorem Littered.length_watchesOf_le (h : s.Littered place lost) (k : String) :
    (s.watchesOf k).length ≤ 1 + lost.countP (·.isFor s.core.id k) := by
  rw [watchesOf_eq_of_placed (q := place k), List.length_map]
  · have hclean : ((s.watchesFor k (place k)).filter
        fun w => !lost.contains w.listener).length ≤ 1 := by
      rw [← watchesFor_without]
      rcases h.clean.watched k (place k) with hnil | ⟨_, i, hi, _⟩
      · rw [hnil]
        exact Nat.zero_le 1
      · rw [hi]
        exact Nat.le_refl 1
    have hlost : ((s.watchesFor k (place k)).filter
        fun w => lost.contains w.listener).length ≤ lost.countP (·.isFor s.core.id k) := by
      rw [← List.length_map (·.listener), List.countP_eq_length_filter]
      refine (List.subperm_of_subset
        ((h.nodup k (place k)).sublist (List.filter_sublist.map _)) fun l hl => ?_).length_le
      obtain ⟨w, hw, rfl⟩ := List.mem_map.1 hl
      obtain ⟨hw, hmem⟩ := List.mem_filter.1 hw
      exact List.mem_filter.2 ⟨List.contains_iff_mem.1 hmem, (List.mem_filter.1 hw).2⟩
    have hsum := List.length_eq_length_filter_add (l := s.watchesFor k (place k))
      fun w => lost.contains w.listener
    omega
  · intro p hp
    exact List.eq_nil_iff_forall_not_mem.2 fun w hw => hp (h.placed k p w hw).1

end Interplay

end Discovery.Registry
