import Discovery.Proofs.Services.PerInstance
import Discovery.Proofs.Since

/-!
# Calls that are dropped

A call that subscribes may be dropped while it waits.  If it waits for its lock, nothing comes of
it.  But if it waits for its listener to be put up, the registry keeps this listener for the key,
though nobody will put it up any more: the key is deaf.  Nobody who subscribes later makes up for
that, since there is a listener for the key, until the last consumer of the key has gone.

* `Deed`, `deed`, `deeds`: a move, or a call is dropped.
* `OrderlyBut`: without the listeners of calls that were dropped, an interplay is orderly.
* `Cuts`, `Deafened`: a call was dropped while it waited for its listener to be put up, and the key
  has had consumers since.
* `length_listenersAt_of_deeds`: how many listeners there are for a key.
-/

namespace Discovery.Registry.Services

/-- Whether a call subscribes. -/
def Call.subscribes : Call → Bool
  | .enter _ | .subscribe _ _ => true
  | _ => false

namespace Interplay

open Naming (Provider)

variable {κ ω : Type} {p : Provider κ ω} {s s' s₀ : Interplay κ} {n i : Nat} {c : Call}
  {v : Visit} {l : Listener} {k : String} {gone : List Listener} {rest : Table Nat}

/-! ### Deeds -/

/-- **A move, or a call that subscribes is dropped.** -/
inductive Deed (κ ω : Type) where
  | move (m : Move κ ω)
  | drop (n : Nat)

/-- A call is dropped.  What it has done stays done, and its lock is free again. -/
def giveUp (s : Interplay κ) (n : Nat) (c : Call) : Interplay κ :=
  { s with registry := s.registry.cancel c, calls := Function.update s.calls n none }

def deed (p : Provider κ ω) (s : Interplay κ) : Deed κ ω → Option (Interplay κ)
  | .move m => s.step p m
  | .drop n => ((s.calls n).filter Call.subscribes).map (s.giveUp n)

def deeds (p : Provider κ ω) (s : Interplay κ) (ds : List (Deed κ ω)) : Option (Interplay κ) :=
  ds.foldlM (deed p) s

theorem giveUp_eq (s : Interplay κ) (n : Nat) (hv : c.visit? = some v) :
    s.giveUp n c = s.leave n v s.core.roster.meter := by
  unfold giveUp cancel
  rw [hv]
  rfl

theorem deed_drop (hs : s.deed p (.drop n) = some s') :
    (∃ v, s.calls n = some (.enter v) ∧ s' = s.leave n v s.core.roster.meter) ∨
      ∃ v l, s.calls n = some (.subscribe v l) ∧ s' = s.leave n v s.core.roster.meter := by
  obtain ⟨c, hc, rfl⟩ := Option.map_eq_some_iff.1 hs
  obtain ⟨hc, hsub⟩ := Option.filter_eq_some_iff.1 hc
  cases c with
  | enter v => exact .inl ⟨v, hc, giveUp_eq s n rfl⟩
  | subscribe v l => exact .inr ⟨v, l, hc, giveUp_eq s n rfl⟩
  | _ => exact nomatch hsub

/-! ### What is kept for a key -/

/-- The registry keeps a listener of a call that was dropped. -/
def Deaf (s : Interplay κ) (gone : List Listener) (k : String) : Prop :=
  ∃ i, s.core.listeners.get? k = some i ∧ s.core.listener k i ∈ gone

theorem Deaf.consumers_ne_nil (h : s.Deaf gone k)
    (hdeserted : s.consumers k = [] → s.core.listeners.get? k = none) : s.consumers k ≠ [] := by
  intro hnil
  obtain ⟨i, hi, _⟩ := h
  exact nomatch (hdeserted hnil).symm.trans hi

/-- **What a move makes of the listener that is kept for a key**: it stays, it is new, or it is
forgotten with the last consumer. -/
theorem Effect.kept {m : Move κ ω} (he : Effect p s m s') (hm : ∀ n why, m ≠ .fail n why)
    (k : String) :
    s'.core.listeners.get? k = s.core.listeners.get? k ∧
        (s'.consumers k = [] → s.consumers k = [] ∨ s.core.listeners.get? k = none) ∨
      s.core.listeners.get? k = none ∧ s'.core.listeners.get? k = some s.core.nextSerial ∧
        s'.consumers k ≠ [] ∨
      s'.core.listeners.get? k = none ∧ s'.consumers k = [] := by
  cases he with
  | beside hb =>
    obtain ⟨m, hm⟩ := hb.core
    refine .inl ⟨by rw [hm]; rfl, fun hnil => .inl ?_⟩
    change s'.core.roster.consumers k = [] at hnil
    rwa [hm] at hnil
  | @join n w v m hc hh hl =>
    refine .inl ⟨rfl, fun hnil => .inl ?_⟩
    by_cases hkv : k = v.key
    · subst hkv
      exact absurd hnil (consumers_attached s v)
    · exact (consumers_attached_of_ne s hkv).symm.trans hnil
  | @make n w v hc hh hl =>
    by_cases hkv : k = v.key
    · subst hkv
      exact .inr (.inl ⟨hl, Table.get?_insert_self _ _ _, consumers_attached s v⟩)
    · refine .inl ⟨Table.get?_insert_of_ne _ _ hkv, fun hnil => .inl ?_⟩
      exact (consumers_attached_of_ne s hkv).symm.trans hnil
  | @part n w v m hc hh hl =>
    refine .inl ⟨rfl, fun hnil => ?_⟩
    by_cases hkv : k = v.key
    · subst hkv
      exact .inr (hl hnil)
    · exact .inl ((consumers_detached_of_ne s hkv).symm.trans hnil)
  | @forget n i w v hc hh hnil hi =>
    by_cases hkv : k = v.key
    · subst hkv
      exact .inr (.inr ⟨Table.get?_erase_self _ _, hnil⟩)
    · refine .inl ⟨Table.get?_erase_of_ne _ hkv, fun hnil => .inl ?_⟩
      exact (consumers_detached_of_ne s hkv).symm.trans hnil
  | takeBack => exact absurd rfl (hm _ _)
  | strand => exact absurd rfl (hm _ _)
  | line | look | putUp | takeDown => exact .inl ⟨rfl, .inl⟩

/-! ### Without the listeners of calls that were dropped -/

/-- The interplay as it would be if the registry kept other listeners. -/
def keeping (s : Interplay κ) (rest : Table Nat) : Interplay κ :=
  { s with registry.core.listeners := rest }

/-- **An interplay that is orderly but for listeners of calls that were dropped**, while no request
fails. -/
structure OrderlyBut (p : Provider κ ω) (s : Interplay κ) (gone : List Listener)
    (rest : Table Nat) : Prop where
  orderly : (s.keeping rest).Orderly p
  rest_iff : ∀ k i, rest.get? k = some i ↔
    s.core.listeners.get? k = some i ∧ s.core.listener k i ∉ gone
  numbered : ∀ l ∈ gone, ∃ k, ∃ i < s.core.nextSerial, l = s.core.listener k i
  attended : s.Attended
  deserted : ∀ k, s.consumers k = [] → s.core.listeners.get? k = none
  lost : s.lost = []

theorem OrderlyBut.not_mem_gone (h : s.OrderlyBut p gone rest) (k : String) :
    s.core.listener k s.core.nextSerial ∉ gone := by
  intro hmem
  obtain ⟨a, i, hi, he⟩ := h.numbered _ hmem
  exact Nat.lt_irrefl _ ((Core.listener_inj he).2 ▸ hi)

theorem OrderlyBut.rest_eq_none (h : s.OrderlyBut p gone rest)
    (hk : s.core.listeners.get? k = none) : rest.get? k = none := by
  refine Option.eq_none_iff_forall_ne_some.2 fun i hi => ?_
  exact nomatch hk.symm.trans ((h.rest_iff k i).1 hi).1

theorem Attended.get?_ne_none (h : s.Attended) (hk : s.consumers k ≠ []) :
    s.core.listeners.get? k ≠ none :=
  Option.isSome_iff_ne_none.1 (h k hk)

theorem OrderlyBut.deserted_effect (h : s.OrderlyBut p gone rest) {m : Move κ ω}
    (he : Effect p s m s') (hm : ∀ n why, m ≠ .fail n why) (hk : s'.consumers k = []) :
    s'.core.listeners.get? k = none := by
  rcases he.kept hm k with ⟨hsame, hnil⟩ | ⟨_, _, hne⟩ | ⟨hnone, _⟩
  · exact hsame.trans ((hnil hk).elim (h.deserted k) id)
  · exact absurd hk hne
  · exact hnone

/-- **A key stays deaf** as long as it has consumers, and no move makes it so. -/
theorem OrderlyBut.deaf_effect (h : s.OrderlyBut p gone rest) {m : Move κ ω}
    (he : Effect p s m s') (hm : ∀ n why, m ≠ .fail n why) (k : String) :
    s'.Deaf gone k ↔ s.Deaf gone k ∧ s'.consumers k ≠ [] := by
  have hlistener := he.later.listener k
  have hsame : s'.core.listeners.get? k = s.core.listeners.get? k →
      (s'.Deaf gone k ↔ s.Deaf gone k) := by
    intro hget
    unfold Deaf
    simp only [hget, hlistener]
  rcases he.kept hm k with ⟨hget, _⟩ | ⟨hnone, hsome, _⟩ | ⟨hnone, hnil⟩
  · rw [← hsame hget]
    exact (and_iff_left_of_imp (·.consumers_ne_nil (h.deserted_effect he hm))).symm
  · refine iff_of_false ?_ ?_
    · -- the listener is new
      rintro ⟨i, hi, hgone⟩
      rw [hlistener, ← Option.some.inj (hsome.symm.trans hi)] at hgone
      exact h.not_mem_gone k hgone
    · rintro ⟨⟨i, hi, _⟩, _⟩
      exact nomatch hnone.symm.trans hi
  · refine iff_of_false ?_ fun hdeaf => hdeaf.2 hnil
    rintro ⟨i, hi, _⟩
    exact nomatch hnone.symm.trans hi

/-- **Each move is a move of the interplay without these listeners too.** -/
theorem OrderlyBut.exists_rest (h : s.OrderlyBut p gone rest) {m : Move κ ω}
    (he : Effect p s m s') (hm : ∀ n why, m ≠ .fail n why) :
    ∃ rest', (s'.keeping rest').Orderly p ∧ ∀ k i, rest'.get? k = some i ↔
      s'.core.listeners.get? k = some i ∧ s'.core.listener k i ∉ gone := by
  have hr := h.orderly
  have hrest := h.rest_iff
  cases he with
  | beside hb =>
    obtain ⟨m, hcore⟩ := hb.core
    refine ⟨rest, ?_, fun k i => ?_⟩
    · refine hr.beside ⟨⟨m, ?_⟩, hb.calls, fun k => ?_, hb.lost⟩
      · show { s'.core with listeners := rest } = _
        rw [hcore]
        rfl
      · exact hb.listeners k
    · rw [hcore]
      exact hrest k i
  | line hfree hcall => exact ⟨rest, hr.line hfree hcall _ _, hrest⟩
  | look => exact ⟨rest, hr.look _, hrest⟩
  | join hc hh hl => exact ⟨rest, (hr.look _).join hc hh _, hrest⟩
  | @make n w v hc hh hl =>
    refine ⟨rest.insert v.key s.core.nextSerial,
      (hr.look v.ticket).make hc hh (h.rest_eq_none hl), fun k i => ?_⟩
    show _ ↔ (Table.insert _ v.key _).get? k = some i ∧ _
    rw [Table.get?_insert, Table.get?_insert]
    split
    · next hk =>
      refine (and_iff_left_of_imp ?_).symm
      rintro hi
      rw [← Option.some.inj hi]
      exact h.not_mem_gone k
    · exact hrest k i
  | part hc hh hl =>
    exact ⟨rest, (hr.look _).part hc hh (fun hnil => h.rest_eq_none (hl hnil)) _, hrest⟩
  | @forget n i w v hc hh hnil hi =>
    refine ⟨rest.erase v.key, (hr.look v.ticket).forget hc hh hnil fun j hj => ?_, fun k j => ?_⟩
    · exact Option.some.inj (((hrest v.key j).1 hj).1.symm.trans hi)
    · show _ ↔ (Table.erase _ v.key).get? k = some j ∧ _
      rw [Table.get?_erase, Table.get?_erase]
      split
      · exact iff_of_false nofun nofun
      · exact hrest k j
  | putUp hc hclient => exact ⟨rest, hr.putUp hc hclient _, hrest⟩
  | takeDown hc hclient => exact ⟨rest, hr.takeDown hc hclient _, hrest⟩
  | takeBack => exact absurd rfl (hm _ _)
  | strand => exact absurd rfl (hm _ _)

theorem OrderlyBut.effect (h : s.OrderlyBut p gone rest) {m : Move κ ω}
    (he : Effect p s m s') (hm : ∀ n why, m ≠ .fail n why) :
    ∃ rest', s'.OrderlyBut p gone rest' := by
  obtain ⟨rest', horderly, hrest'⟩ := h.exists_rest he hm
  have hl := he.later
  refine ⟨rest', horderly, hrest', fun l hgone => ?_, h.attended.effect he hm,
    fun k => h.deserted_effect he hm, (he.lost_eq hm).trans h.lost⟩
  obtain ⟨k, i, hi, hlk⟩ := h.numbered l hgone
  exact ⟨k, i, Nat.lt_of_lt_of_le hi hl.serial, hlk.trans (hl.listener k i).symm⟩

/-- A call goes away that has not passed its lock. -/
theorem Orderly.stepOut (h : s.Orderly p) (hc : s.calls n = some c) (hv : c.visit? = some v)
    (hi : c.inside = false) (m : Meter) : (s.leave n v m).Orderly p := by
  refine h.frame ⟨rfl, Nat.le_refl _, fun _ h => h⟩ ?_ (fun _ => ⟨rfl, rfl, rfl⟩) fun n' d hd => ?_
  · show Queue (s.core.locks.drop v.ticket) (visits (Function.update s.calls n none))
    rw [visits_update]
    exact h.queue.depart (visits_of_call hc hv)
  · by_cases hn : n' = n
    · subst hn
      refine iff_of_false (fun h' => ?_) fun h' => ?_
      · change Function.update s.calls n' none n' = some d at h'
        rw [Function.update_self] at h'
        exact nomatch h'
      · obtain rfl := Option.some.inj (hc.symm.trans h')
        exact nomatch hi.symm.trans hd
    · rw [calls_leave s v m hn]

/-- Nothing comes of a call that is dropped at its lock. -/
theorem OrderlyBut.dropEnter (h : s.OrderlyBut p gone rest) (hc : s.calls n = some (.enter v))
    (m : Meter) : (s.leave n v m).OrderlyBut p gone rest :=
  ⟨h.orderly.stepOut hc rfl rfl m, h.rest_iff, h.numbered, h.attended, h.deserted, h.lost⟩

theorem OrderlyBut.listener_of_subscribe (h : s.OrderlyBut p gone rest)
    (hc : s.calls n = some (.subscribe v l)) : s.consumers v.key ≠ [] ∧
      ∃ i, rest.get? v.key = some i ∧ l = s.core.listener v.key i := by
  obtain ⟨hne, _, hi⟩ := h.orderly.phase n _ hc
  exact ⟨hne, hi⟩

/-- **A call is dropped while it waits for its listener to be put up**: if it took it back, as it
does when the request fails, the interplay would be orderly. -/
theorem OrderlyBut.dropSubscribe (h : s.OrderlyBut p gone rest)
    (hc : s.calls n = some (.subscribe v l)) (m : Meter) :
    (s.leave n v m).OrderlyBut p (gone ++ [l]) (rest.erase v.key) := by
  obtain ⟨_, i, hi, hl⟩ := h.listener_of_subscribe hc
  have hkept := ((h.rest_iff v.key i).1 hi).1
  have hback : ((s.leave n v m).keeping (rest.erase v.key)).Orderly p := by
    have htaken : (s.keeping rest).takenBack v l = (s.keeping rest).forgotten v.key :=
      takenBack_eq hi hl
    have hback := h.orderly.takeBack hc m
    rwa [htaken] at hback
  refine ⟨hback, fun k j => ?_, fun x hx => ?_, h.attended, h.deserted, h.lost⟩
  · show _ ↔ s.core.listeners.get? k = some j ∧ s.core.listener k j ∉ gone ++ [l]
    rw [Table.get?_erase, List.mem_append, List.mem_singleton, not_or]
    split
    · next hk =>
      subst hk
      refine iff_of_false nofun ?_
      rintro ⟨hj, _, hne⟩
      obtain rfl := Option.some.inj (hkept.symm.trans hj)
      exact hne hl.symm
    · next hk =>
      rw [h.rest_iff]
      refine and_congr_right fun _ => (and_iff_left fun he => ?_).symm
      exact hk (Core.listener_inj (he.trans hl)).1
  · rcases List.mem_append.1 hx with hx | hx
    · exact h.numbered x hx
    · exact ⟨v.key, i, (h.orderly.settled v.key).serial i hi, (List.mem_singleton.1 hx).trans hl⟩

/-- **The key is deaf then**, and no other key becomes so. -/
theorem OrderlyBut.deaf_dropSubscribe (h : s.OrderlyBut p gone rest)
    (hc : s.calls n = some (.subscribe v l)) (m : Meter) (k : String) :
    (s.leave n v m).Deaf (gone ++ [l]) k ↔ k = v.key ∨ s.Deaf gone k := by
  obtain ⟨_, i, hi, hl⟩ := h.listener_of_subscribe hc
  have hkept := ((h.rest_iff v.key i).1 hi).1
  by_cases hk : k = v.key
  · subst hk
    refine iff_of_true ⟨i, hkept, List.mem_append_right _ ?_⟩ (.inl rfl)
    exact hl ▸ List.mem_singleton_self _
  · rw [or_iff_right hk]
    refine exists_congr fun j => and_congr_right fun _ => ?_
    rw [List.mem_append, List.mem_singleton]
    refine or_iff_left fun he => hk ?_
    exact (Core.listener_inj (he.trans hl)).1

/-! ### Runs -/

/-- **A call on a key is dropped while it waits for its listener to be put up.** -/
def Cuts (p : Provider κ ω) (s₀ : Interplay κ) (k : String) (ds : List (Deed κ ω))
    (d : Deed κ ω) : Prop :=
  ∃ s n v l, s₀.deeds p ds = some s ∧ d = .drop n ∧ s.calls n = some (.subscribe v l) ∧ v.key = k

/-- **A key has been deafened**: a call on it was dropped while it waited for its listener to be put
up, and the key has had consumers since. -/
def Deafened (p : Provider κ ω) (s₀ : Interplay κ) (k : String) : List (Deed κ ω) → Prop :=
  Since (s₀.Cuts p k) fun ds d => ∃ s, s₀.deeds p (ds ++ [d]) = some s ∧ s.consumers k ≠ []

theorem deeds_concat {ds : List (Deed κ ω)} {d : Deed κ ω} (hs : s₀.deeds p (ds ++ [d]) = some s') :
    ∃ s, s₀.deeds p ds = some s ∧ s.deed p d = some s' := by
  unfold deeds at hs
  rw [List.foldlM_append] at hs
  obtain ⟨s, hs, hd⟩ := Option.bind_eq_some_iff.1 hs
  exact ⟨s, hs, by simpa using hd⟩

/-- **Each deed keeps an interplay orderly but for the listeners of calls that were dropped**, and
what it makes of the key of such a call. -/
theorem OrderlyBut.deed (h : s.OrderlyBut p gone rest) {d : Deed κ ω}
    (hd : ∀ n why, d ≠ .move (.fail n why)) (hs : s.deed p d = some s') :
    ∃ gone' rest', s'.OrderlyBut p gone' rest' ∧ ∀ k, s'.Deaf gone' k ↔
      (∃ n v l, d = .drop n ∧ s.calls n = some (.subscribe v l) ∧ v.key = k) ∨
        s.Deaf gone k ∧ s'.consumers k ≠ [] := by
  cases d with
  | move m =>
    have he := step_effect hs
    have hm : ∀ n why, m ≠ .fail n why := fun n why hm => hd n why (congrArg _ hm)
    obtain ⟨rest', h'⟩ := h.effect he hm
    refine ⟨gone, rest', h', fun k => (h.deaf_effect he hm k).trans (or_iff_right ?_).symm⟩
    rintro ⟨_, _, _, hdrop, _⟩
    exact nomatch hdrop
  | drop n =>
    rcases deed_drop hs with ⟨v, hc, rfl⟩ | ⟨v, l, hc, rfl⟩
    · refine ⟨gone, rest, h.dropEnter hc _, fun k => ?_⟩
      show s.Deaf gone k ↔ _ ∨ s.Deaf gone k ∧ s.consumers k ≠ []
      rw [and_iff_left_of_imp (·.consumers_ne_nil (h.deserted k))]
      refine (or_iff_right ?_).symm
      rintro ⟨_, w, l, hdrop, hw, _⟩
      cases hdrop
      exact nomatch hc.symm.trans hw
    · refine ⟨gone ++ [l], rest.erase v.key, h.dropSubscribe hc _, fun k => ?_⟩
      rw [h.deaf_dropSubscribe hc]
      refine or_congr ⟨?_, ?_⟩ (and_iff_left_of_imp (·.consumers_ne_nil (h.deserted k))).symm
      · rintro rfl
        exact ⟨n, v, l, rfl, hc, rfl⟩
      · rintro ⟨_, w, l', hdrop, hw, rfl⟩
        cases hdrop
        cases hc.symm.trans hw
        rfl

/-- **After any run without failures**, the interplay is orderly but for the listeners of calls that
were dropped, and the keys that are deaf are those that have been deafened. -/
theorem OrderlyBut.deeds (h : s₀.OrderlyBut p [] s₀.core.listeners) {ds : List (Deed κ ω)}
    (hd : ∀ n why, .move (.fail n why) ∉ ds) (hs : s₀.deeds p ds = some s) :
    ∃ gone rest, s.OrderlyBut p gone rest ∧ ∀ k, s.Deaf gone k ↔ s₀.Deafened p k ds := by
  induction ds using List.reverseRecOn generalizing s with
  | nil =>
    obtain rfl := Option.some.inj hs
    refine ⟨[], s₀.core.listeners, h, fun k => iff_of_false ?_ not_since_nil⟩
    rintro ⟨i, _, hgone⟩
    exact nomatch hgone
  | append_singleton ds d ih =>
    obtain ⟨t, ht, hdeed⟩ := deeds_concat hs
    obtain ⟨gone, rest, h', hdeaf⟩ := ih
      (fun n why hmem => hd n why (List.mem_append_left _ hmem)) ht
    obtain ⟨gone', rest', h', hdeaf'⟩ := h'.deed (fun n why hlast => hd n why
      (List.mem_append_right _ (List.mem_singleton.2 hlast.symm))) hdeed
    refine ⟨gone', rest', h', fun k => ?_⟩
    unfold Deafened at hdeaf ⊢
    rw [hdeaf', hdeaf, since_concat]
    refine or_congr ⟨?_, ?_⟩ (and_congr_right fun _ => ⟨fun hne => ⟨s, hs, hne⟩, ?_⟩)
    · rintro ⟨n, v, l, hdrop, hc, hk⟩
      exact ⟨t, n, v, l, ht, hdrop, hc, hk⟩
    · rintro ⟨u, n, v, l, hu, hdrop, hc, hk⟩
      obtain rfl := Option.some.inj (ht.symm.trans hu)
      exact ⟨n, v, l, hdrop, hc, hk⟩
    · rintro ⟨u, hu, hne⟩
      obtain rfl := Option.some.inj (hs.symm.trans hu)
      exact hne

/-! ### Listeners for a key -/

theorem OrderlyBut.consumers_of_done (h : s.OrderlyBut p gone rest) {w : ω}
    (hs : s.step p (.go n w) = some s') (hc : s.calls n = some c) (hsub : c.subscribes = true)
    (hv : c.visit? = some v) (hdone : s'.calls n = none) : s'.consumers v.key ≠ [] := by
  cases step_effect hs with
  | beside hb => exact nomatch hdone.symm.trans ((hb.calls n c v hv).2 hc)
  | look => exact nomatch hdone.symm.trans hc
  | join hc' =>
    cases hc.symm.trans hc'
    cases hv
    exact consumers_attached s v
  | make hc' =>
    change Function.update s.calls n _ n = none at hdone
    rw [Function.update_self] at hdone
    exact nomatch hdone
  | putUp hc' =>
    cases hc.symm.trans hc'
    cases hv
    exact (h.listener_of_subscribe hc').1
  | part hc' | forget hc' | takeDown hc' =>
    cases hc.symm.trans hc'
    exact nomatch hsub

theorem orderlyBut_begin {client : κ} {id : Nat}
    (hnew : ∀ k, ∀ l ∈ (p.audience client).of k, l.isOf id = false) :
    (begin client id).OrderlyBut p [] ∅ where
  orderly := orderly_begin hnew
  rest_iff _ _ := (and_iff_left List.not_mem_nil).symm
  numbered _ hl := nomatch hl
  attended _ hk := absurd rfl hk
  deserted _ _ := rfl
  lost := rfl

/-- The last deed of a run is that a call which subscribes to a key comes to its end. -/
def Subscribed (p : Provider κ ω) (s₀ : Interplay κ) (k : String) (ds : List (Deed κ ω)) : Prop :=
  ∃ before n w s s' c v, ds = before ++ [.move (.go n w)] ∧ s₀.deeds p before = some s ∧
    s.step p (.go n w) = some s' ∧ s.calls n = some c ∧ c.subscribes = true ∧
      c.visit? = some v ∧ v.key = k ∧ s'.calls n = none

/-- **One listener for a key, unless it is deaf.**  However calls interleave and wherever calls that
subscribe are dropped while they wait, if no request fails, then while no call on a key is in
progress: if the key has consumers, as it has when a call has just subscribed to it, then the naming
client has one listener of the registry for it, except if a call on the key was dropped while it
waited for its listener to be put up and the key has had consumers since: then it has none. -/
theorem length_listenersAt_of_deeds {client : κ} {id : Nat} {ds : List (Deed κ ω)}
    (hnew : ∀ k, ∀ l ∈ (p.audience client).of k, l.isOf id = false)
    (hok : ∀ n why, .move (.fail n why) ∉ ds) (hrun : (begin client id).deeds p ds = some s)
    (hidle : ∀ n c v, s.calls n = some c → c.visit? = some v → v.key ≠ k) :
    (s.consumers k ≠ [] → ¬ (begin client id).Deafened p k ds →
      (s.listenersAt p k).length = 1) ∧
    (s.consumers k = [] ∨ (begin client id).Deafened p k ds → s.listenersAt p k = []) ∧
    ((begin client id).Subscribed p k ds → s.consumers k ≠ []) := by
  have h₀ := orderlyBut_begin hnew
  obtain ⟨gone, rest, h, hdeaf⟩ := h₀.deeds hok hrun
  have hat : s.listenersAt p k = ((rest.get? k).map (s.core.listener k)).toList :=
    h.orderly.listenersAt_of_idle h.lost hidle
  rw [← hdeaf, hat]
  refine ⟨fun hne hnot => ?_, fun hnone => ?_, ?_⟩
  · obtain ⟨i, hi⟩ := Option.ne_none_iff_exists'.1 (h.attended.get?_ne_none hne)
    rw [(h.rest_iff k i).2 ⟨hi, fun hgone => hnot ⟨i, hi, hgone⟩⟩]
    rfl
  · have hrest : rest.get? k = none := by
      refine Option.eq_none_iff_forall_ne_some.2 fun i hi => ?_
      obtain ⟨hget, hgone⟩ := (h.rest_iff k i).1 hi
      rcases hnone with hnil | ⟨j, hj, hmem⟩
      · exact nomatch (h.deserted k hnil).symm.trans hget
      · obtain rfl := Option.some.inj (hget.symm.trans hj)
        exact hgone hmem
    rw [hrest]
    rfl
  · rintro ⟨before, n, w, t, t', c, v, rfl, ht, hstep, hc, hsub, hv, rfl, hdone⟩
    obtain ⟨u, hu, hlast⟩ := deeds_concat hrun
    obtain rfl := Option.some.inj (ht.symm.trans hu)
    obtain rfl := Option.some.inj (hstep.symm.trans hlast)
    obtain ⟨_, _, hbefore, _⟩ := h₀.deeds (fun n why hmem =>
      hok n why (List.mem_append_left _ hmem)) ht
    exact hbefore.consumers_of_done hstep hc hsub hv hdone

/-- A call subscribes and is dropped while its listener is put up, and then another one
subscribes. -/
def dropped : List (Deed Naming.Directory Unit) :=
  [.move (.start 0 (.subscribe shop "c")), .move (.go 0 ()), .drop 0,
    .move (.start 1 (.subscribe shop "d")), .move (.go 1 ())]

/-- Both consumers go, and one of them comes back. -/
def revived : List (Deed Naming.Directory Unit) :=
  dropped ++ [.move (.start 0 (.unsubscribe shop "c")), .move (.go 0 ()),
    .move (.start 1 (.unsubscribe shop "d")), .move (.go 1 ()), .move (.go 1 ()),
    .move (.start 0 (.subscribe shop "c")), .move (.go 0 ()), .move (.go 0 ())]

theorem deeds_dropped : ∃ s,
    (begin (∅ : Naming.Directory) 7).deeds Naming.Directory.provider dropped = some s ∧
      (∀ n, s.calls n = none) ∧ s.consumers "nacos://h:1/a" = ["c", "d"] ∧
      s.listenersAt Naming.Directory.provider "nacos://h:1/a" = [] := by
  refine ⟨_, rfl, fun n => ?_, by decide, by decide⟩
  match n with
  | 0 => rfl
  | 1 => rfl
  | _ + 2 => rfl

theorem deeds_revived : ∃ s,
    (begin (∅ : Naming.Directory) 7).deeds Naming.Directory.provider revived = some s ∧
      (∀ n, s.calls n = none) ∧
      s.listenersAt Naming.Directory.provider "nacos://h:1/a" ≠ [] := by
  refine ⟨_, rfl, fun n => ?_, by decide⟩
  match n with
  | 0 => rfl
  | 1 => rfl
  | _ + 2 => rfl

/-- The key has been deafened, and is no longer so when its consumers have gone. -/
theorem deafened_of_dropped :
    (begin (∅ : Naming.Directory) 7).Deafened Naming.Directory.provider "nacos://h:1/a" dropped ∧
    ∃ s, (begin (∅ : Naming.Directory) 7).deeds Naming.Directory.provider revived = some s ∧
      ¬ (begin (∅ : Naming.Directory) 7).Deafened Naming.Directory.provider "nacos://h:1/a"
        revived ∧
      (s.listenersAt Naming.Directory.provider "nacos://h:1/a").length = 1 := by
  have hnew : ∀ k, ∀ l ∈ (Naming.Directory.provider.audience ∅).of k, l.isOf 7 = false :=
    fun k l hl => absurd hl List.not_mem_nil
  refine ⟨?_, ?_⟩
  · obtain ⟨s, hs, hcalls, hcons, hat⟩ := deeds_dropped
    obtain ⟨hone, _⟩ := length_listenersAt_of_deeds (k := "nacos://h:1/a") hnew
      (by simp [dropped]) hs fun n c v hn => (nomatch (hcalls n).symm.trans hn)
    by_contra hnot
    have hlength := hone (by rw [hcons]; exact List.cons_ne_nil _ _) hnot
    rw [hat] at hlength
    exact nomatch hlength
  · obtain ⟨s, hs, hcalls, hat⟩ := deeds_revived
    obtain ⟨hone, hnone, _⟩ := length_listenersAt_of_deeds (k := "nacos://h:1/a") hnew
      (by simp [revived, dropped]) hs fun n c v hn => (nomatch (hcalls n).symm.trans hn)
    have hnot := fun hdeaf => hat (hnone (.inr hdeaf))
    exact ⟨s, hs, hnot, hone (fun hnil => hat (hnone (.inl hnil))) hnot⟩

/-- Nobody listens for the consumers of the key, though one of them has just subscribed to it. -/
theorem deaf_of_dropped : ∃ s,
    (begin (∅ : Naming.Directory) 7).deeds Naming.Directory.provider dropped = some s ∧
      (begin (∅ : Naming.Directory) 7).Subscribed Naming.Directory.provider "nacos://h:1/a"
        dropped ∧
      (∀ n, s.calls n = none) ∧ s.consumers "nacos://h:1/a" = ["c", "d"] ∧
      s.listenersAt Naming.Directory.provider "nacos://h:1/a" = [] := by
  obtain ⟨s, hs, hrest⟩ := deeds_dropped
  refine ⟨s, hs, ⟨dropped.take 4, 1, (), _, _, _, _, rfl, rfl, rfl, rfl, rfl, rfl, ?_, ?_⟩, hrest⟩
  · decide
  · rfl

end Interplay

end Discovery.Registry.Services
