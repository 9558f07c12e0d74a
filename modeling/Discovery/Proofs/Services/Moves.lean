import Discovery.Proofs.Services.Orderly

/-!
# Moves keep an interplay over a naming client orderly

* `Orderly.join`, `Orderly.make`: a consumer comes in, and a listener is made if there is none.
* `Orderly.part`, `Orderly.forget`: a consumer goes, and with the last one the listener is
  forgotten.
* `Orderly.putUp`, `Orderly.takeBack`, `Orderly.takeDown`, `Orderly.strand`: what comes of the
  requests to put a listener up and to take it down.
* `Orderly.step`, `Orderly.run`: any move, and any run.
-/

namespace Discovery.Registry.Services.Interplay

open Naming (Provider)

variable {κ ω : Type} {p : Provider κ ω} {s s' t : Interplay κ} {n i : Nat} {c : Call}
  {v : Visit} {l : Listener} {k : String} {client : κ}

/-! ### Listeners that come and go -/

theorem listenersAt_add {service : String}
    (hclient : p.audience client = (p.audience s.client).add service l)
    (hl : l.isOf s.core.id = true) (hnot : l ∉ s.listenersAt p service) (k : String) :
    ({ s with client } : Interplay κ).listenersAt p k =
      if k = service then s.listenersAt p service ++ [l] else s.listenersAt p k := by
  have hnew : ¬ ((p.audience s.client).of service).contains l = true := fun hmem =>
    hnot (List.mem_filter.2 ⟨List.contains_iff_mem.1 hmem, hl⟩)
  show ((p.audience client).of k).filter (·.isOf s.core.id) = _
  rw [hclient, Naming.Audience.of_add, if_neg hnew]
  split
  · rw [List.filter_append, List.filter_cons_of_pos hl, List.filter_nil]
    rfl
  · rfl

theorem listenersAt_remove {service : String}
    (hclient : p.audience client = (p.audience s.client).remove service l) (k : String) :
    ({ s with client } : Interplay κ).listenersAt p k =
      if k = service then (s.listenersAt p service).filter (· != l) else s.listenersAt p k := by
  show ((p.audience client).of k).filter (·.isOf s.core.id) = _
  rw [hclient, Naming.Audience.of_remove]
  split
  · exact List.filter_comm ..
  · rfl

/-! ### The end of a call -/

/-- A call that has its lock ends: it has left the locks, the calls and other keys alone so far. -/
theorem Orderly.leave (h : s.Orderly p) (hc : s.calls n = some c) (hv : c.visit? = some v)
    (hh : s.core.locks.holds v.ticket = true) {m : Meter} (hlocks : t.core.locks = s.core.locks)
    (hcalls : t.calls = s.calls) (hl : s.Later t) (hother : ∀ k, k ≠ v.key → s.SameAt p t k)
    (hkey : (t.leave n v m).Settled p v.key) : (t.leave n v m).Orderly p := by
  refine h.advance hc hv hh (d := none) ?_ (.inl ⟨rfl, ?_⟩) ⟨hl.id, hl.serial, hl.lost⟩ hother hkey
  · show Function.update t.calls n none = _
    rw [hcalls]
  · show t.core.locks.drop v.ticket = _
    rw [hlocks]

theorem calls_leave (t : Interplay κ) (v : Visit) (m : Meter) {n' : Nat} (hne : n' ≠ n) :
    (t.leave n v m).calls n' = t.calls n' := by
  show Function.update t.calls n none n' = _
  rw [Function.update_of_ne hne]

/-! ### Consumers that come and go -/

theorem consumers_attached (s : Interplay κ) (v : Visit) : (s.attached v).consumers v.key ≠ [] := by
  show (s.core.roster.attach v.key v.consumer).consumers v.key ≠ []
  rw [Roster.consumers_attach, if_pos rfl]
  split
  · next hmem => exact List.ne_nil_of_mem (List.contains_iff_mem.1 hmem)
  · exact List.append_ne_nil_of_right_ne_nil _ (List.cons_ne_nil _ _)

theorem consumers_attached_of_ne (s : Interplay κ) (hk : k ≠ v.key) :
    (s.attached v).consumers k = s.consumers k :=
  (Roster.consumers_attach _ _ _ _).trans (if_neg hk)

theorem consumers_detached_of_ne (s : Interplay κ) (hk : k ≠ v.key) :
    (s.detached v).consumers k = s.consumers k :=
  (Roster.consumers_detach _ _ _ _).trans (if_neg hk)

theorem Orderly.leave_outside (h : s.Orderly p) (hc : s.calls n = some c) (hv : c.visit? = some v)
    (hi : c.inside = false) (hh : s.core.locks.holds v.ticket = true) {r : Roster} {m : Meter}
    (hother : ∀ k, k ≠ v.key → r.consumers k = s.consumers k)
    (hattended : r.consumers v.key = [] → s.core.listeners.get? v.key = none) :
    (({ s with registry.core.roster := r } : Interplay κ).leave n v m).Orderly p := by
  refine h.leave hc hv hh rfl rfl ⟨rfl, Nat.le_refl _, fun _ h => h⟩
    (fun k hk => ⟨hother k hk, rfl, rfl⟩)
    ((h.settled v.key).carry ⟨rfl, Nat.le_refl _, fun _ h => h⟩ rfl rfl hattended
      fun m' e w hm _ hei _ => (calls_leave _ v m ?_).trans hm)
  rintro rfl
  obtain rfl := Option.some.inj (hc.symm.trans hm)
  exact nomatch hi.symm.trans hei

/-- **A consumer comes in**, and its key has a listener. -/
theorem Orderly.join (h : s.Orderly p) (hc : s.calls n = some (.enter v))
    (hh : s.core.locks.holds v.ticket = true) (m : Meter) :
    ((s.attached v).leave n v m).Orderly p :=
  h.leave_outside hc rfl rfl hh (fun _ hk => consumers_attached_of_ne s hk)
    fun hnil => absurd hnil (consumers_attached s v)

/-- **A consumer goes**, and there is no listener to take down. -/
theorem Orderly.part (h : s.Orderly p) (hc : s.calls n = some (.enterOut v))
    (hh : s.core.locks.holds v.ticket = true)
    (hl : (s.detached v).consumers v.key = [] → s.core.listeners.get? v.key = none) (m : Meter) :
    ((s.detached v).leave n v m).Orderly p :=
  h.leave_outside hc rfl rfl hh (fun _ hk => consumers_detached_of_ne s hk) hl

/-- **A consumer comes in, and a listener is made** with a new serial number. -/
theorem Orderly.make (h : s.Orderly p) (hc : s.calls n = some (.enter v))
    (hh : s.core.locks.holds v.ticket = true) (hnone : s.core.listeners.get? v.key = none) :
    ((s.attached v).make n v).Orderly p := by
  have hk := h.settled v.key
  have hself : ((s.attached v).make n v).core.listeners.get? v.key = some s.core.nextSerial :=
    Table.get?_insert_self _ _ _
  have hnew : s.core.listener v.key s.core.nextSerial ∉ s.listenersAt p v.key := by
    intro hmem
    obtain ⟨i, hi, he, _⟩ := hk.backed _ hmem
    exact Nat.lt_irrefl _ ((Core.listener_inj he).2 ▸ hi)
  refine h.advance hc rfl hh rfl
    (.inr ⟨rfl, _, rfl, rfl, rfl, consumers_attached s v, hnew, _, hself, rfl⟩)
    ⟨rfl, Nat.le_succ _, fun _ h => h⟩ (fun k hkv => ?_)
    ⟨fun i hi => ?_, fun hnil => absurd hnil (consumers_attached s v), hk.nodup,
      fun l hmem => ?_, fun i hi => ?_⟩
  · exact ⟨consumers_attached_of_ne s hkv, Table.get?_insert_of_ne _ _ hkv, rfl⟩
  · obtain rfl := Option.some.inj (hself.symm.trans hi)
    exact Nat.lt_succ_self _
  · obtain ⟨i, hi, he, hb⟩ := hk.backed l hmem
    refine ⟨i, Nat.lt_succ_of_lt hi, he, ?_⟩
    rcases hb with hb | ⟨m, w, hm, hw⟩ | hb
    · exact nomatch hnone.symm.trans hb
    · refine .inr (.inl ⟨m, w, ?_, hw⟩)
      refine (Function.update_of_ne ?_ _ _).trans hm
      rintro rfl
      exact nomatch hc.symm.trans hm
    · exact .inr (.inr hb)
  · obtain rfl := Option.some.inj (hself.symm.trans hi)
    exact .inr ⟨n, v, Function.update_self _ _ _, rfl⟩

/-- **The last consumer goes, and the listener is forgotten**; the call is about to take it down. -/
theorem Orderly.forget (h : s.Orderly p) (hc : s.calls n = some (.enterOut v))
    (hh : s.core.locks.holds v.ticket = true) (hnil : (s.detached v).consumers v.key = [])
    (hi : ∀ j, s.core.listeners.get? v.key = some j → j = i) :
    ((s.detached v).forget n v i).Orderly p := by
  have hk := h.settled v.key
  have hnone : ((s.detached v).forget n v i).core.listeners.get? v.key = none :=
    Table.get?_erase_self _ _
  refine h.advance hc rfl hh rfl (.inr ⟨rfl, _, rfl, rfl, rfl, hnil, i, rfl⟩)
    ⟨rfl, Nat.le_refl _, fun _ h => h⟩ (fun k hkv => ?_)
    ⟨fun j hj => (nomatch hnone.symm.trans hj), fun _ => hnone, hk.nodup,
      fun l hmem => ?_, fun j hj => (nomatch hnone.symm.trans hj)⟩
  · exact ⟨consumers_detached_of_ne s hkv, Table.get?_erase_of_ne _ hkv, rfl⟩
  · obtain ⟨j, hj, he, hb⟩ := hk.backed l hmem
    refine ⟨j, hj, he, ?_⟩
    rcases hb with hb | ⟨m, w, hm, hw⟩ | hb
    · obtain rfl := hi j hb
      exact .inr (.inl ⟨n, v, Function.update_self _ _ _, rfl⟩)
    · refine .inr (.inl ⟨m, w, ?_, hw⟩)
      refine (Function.update_of_ne ?_ _ _).trans hm
      rintro rfl
      exact nomatch hc.symm.trans hm
    · exact .inr (.inr hb)

/-! ### Requests about listeners -/

/-- **A call puts its listener up.** -/
theorem Orderly.putUp (h : s.Orderly p) (hc : s.calls n = some (.subscribe v l))
    (hclient : p.audience client = (p.audience s.client).add v.key l) (m : Meter) :
    (({ s with client } : Interplay κ).leave n v m).Orderly p := by
  have hk := h.settled v.key
  obtain ⟨hne, hnot, i, hi, hl⟩ := h.phase n _ hc
  have hat := listenersAt_add hclient (by rw [hl]; exact isOf_listener _ _ _) hnot
  have hself : (({ s with client } : Interplay κ).leave n v m).listenersAt p v.key =
      s.listenersAt p v.key ++ [l] := (hat v.key).trans (if_pos rfl)
  refine h.leave hc rfl (h.holds_of_inside hc rfl rfl) rfl rfl ⟨rfl, Nat.le_refl _, fun _ h => h⟩
    (fun k hkv => ⟨rfl, rfl, (hat k).trans (if_neg hkv)⟩)
    ⟨hk.serial, hk.attended, ?_, fun l' hmem => ?_, fun j hj => ?_⟩
  · rw [hself, List.nodup_append]
    refine ⟨hk.nodup, List.nodup_singleton l, fun a ha b hb hab => hnot ?_⟩
    exact List.mem_singleton.1 hb ▸ hab ▸ ha
  · rw [hself] at hmem
    rcases List.mem_append.1 hmem with hmem | hmem
    · obtain ⟨j, hj, he, hb⟩ := hk.backed l' hmem
      refine ⟨j, hj, he, hb.mono ⟨rfl, Nat.le_refl _, fun _ h => h⟩ rfl fun m' w l hm _ =>
        (calls_leave _ v m ?_).trans hm⟩
      rintro rfl
      exact nomatch hc.symm.trans hm
    · exact ⟨i, hk.serial i hi, (List.mem_singleton.1 hmem).trans hl, .inl hi⟩
  · obtain rfl := Option.some.inj (hi.symm.trans hj)
    refine .inl ?_
    rw [hself, hl]
    exact List.mem_append_right _ (List.mem_singleton_self _)

/-- **A call cannot put its listener up**, and takes it back. -/
theorem Orderly.takeBack (h : s.Orderly p) (hc : s.calls n = some (.subscribe v l)) (m : Meter) :
    ((s.takenBack v l).leave n v m).Orderly p := by
  have hk := h.settled v.key
  obtain ⟨_, hnot, i, hi, hl⟩ := h.phase n _ hc
  have hnone : (s.forgotten v.key).core.listeners.get? v.key = none := Table.get?_erase_self _ _
  rw [takenBack_eq hi hl]
  refine h.leave hc rfl (h.holds_of_inside hc rfl rfl) rfl rfl ⟨rfl, Nat.le_refl _, fun _ h => h⟩
    (fun k hkv => ⟨rfl, Table.get?_erase_of_ne _ hkv, rfl⟩)
    ⟨fun j hj => (nomatch hnone.symm.trans hj), fun _ => hnone, hk.nodup, fun l' hmem => ?_,
      fun j hj => (nomatch hnone.symm.trans hj)⟩
  obtain ⟨j, hj, he, hb⟩ := hk.backed l' hmem
  refine ⟨j, hj, he, ?_⟩
  rcases hb with hb | ⟨m', w, hm, hw⟩ | hb
  · -- the listener that is taken back was not up
    obtain rfl := Option.some.inj (hi.symm.trans hb)
    exact absurd (hl.trans he.symm ▸ hmem) hnot
  · refine .inr (.inl ⟨m', w, (calls_leave _ v m ?_).trans hm, hw⟩)
    rintro rfl
    exact nomatch hc.symm.trans hm
  · exact .inr (.inr hb)

/-- **A call takes its listener down.** -/
theorem Orderly.takeDown (h : s.Orderly p) (hc : s.calls n = some (.unsubscribe v l))
    (hclient : p.audience client = (p.audience s.client).remove v.key l) (m : Meter) :
    (({ s with client } : Interplay κ).leave n v m).Orderly p := by
  have hk := h.settled v.key
  obtain ⟨hnil, i, hl⟩ := h.phase n _ hc
  have hat := listenersAt_remove (s := s) hclient
  have hself : (({ s with client } : Interplay κ).leave n v m).listenersAt p v.key =
      (s.listenersAt p v.key).filter (· != l) := (hat v.key).trans (if_pos rfl)
  refine h.leave hc rfl (h.holds_of_inside hc rfl rfl) rfl rfl ⟨rfl, Nat.le_refl _, fun _ h => h⟩
    (fun k hkv => ⟨rfl, rfl, (hat k).trans (if_neg hkv)⟩)
    ⟨hk.serial, hk.attended, ?_, fun l' hmem => ?_, fun j hj => ?_⟩
  · rw [hself]
    exact hk.nodup.filter _
  · rw [hself] at hmem
    obtain ⟨hmem, hne⟩ := List.mem_filter.1 hmem
    obtain ⟨j, hj, he, hb⟩ := hk.backed l' hmem
    refine ⟨j, hj, he, ?_⟩
    rcases hb with hb | ⟨m', w, hm, hw⟩ | hb
    · exact .inl hb
    · refine .inr (.inl ⟨m', w, (calls_leave _ v m ?_).trans hm, hw⟩)
      rintro rfl
      -- the listener that this call takes down is not there any more
      cases hc.symm.trans hm
      exact bne_iff_ne.1 hne he
    · exact .inr (.inr hb)
  · exact nomatch (hk.attended hnil).symm.trans hj

/-- **A call cannot take its listener down**, which is lost then. -/
theorem Orderly.strand (h : s.Orderly p) (hc : s.calls n = some (.unsubscribe v l)) (m : Meter) :
    (({ s with lost := s.lost ++ [l] } : Interplay κ).leave n v m).Orderly p := by
  have hk := h.settled v.key
  obtain ⟨hnil, i, hl⟩ := h.phase n _ hc
  refine h.leave hc rfl (h.holds_of_inside hc rfl rfl) rfl rfl
    ⟨rfl, Nat.le_refl _, List.subset_append_left _ _⟩ (fun k hkv => ⟨rfl, rfl, rfl⟩)
    ⟨hk.serial, hk.attended, hk.nodup, fun l' hmem => ?_, fun j hj => ?_⟩
  · obtain ⟨j, hj, he, hb⟩ := hk.backed l' hmem
    refine ⟨j, hj, he, ?_⟩
    rcases hb with hb | ⟨m', w, hm, hw⟩ | hb
    · exact .inl hb
    · by_cases hmn : m' = n
      · subst hmn
        cases hc.symm.trans hm
        exact .inr (.inr (List.mem_append_right _ (List.mem_singleton_self _)))
      · exact .inr (.inl ⟨m', w, (calls_leave _ v m hmn).trans hm, hw⟩)
    · exact .inr (.inr (List.mem_append_left _ hb))
  · exact nomatch (hk.attended hnil).symm.trans hj

/-! ### Any move -/

/-- **Each effect keeps an interplay orderly.** -/
theorem Orderly.effect (h : s.Orderly p) {m : Move κ ω} (he : Effect p s m s') : s'.Orderly p := by
  cases he with
  | beside hb => exact h.beside hb
  | line hfree hcall => exact h.line hfree hcall _ _
  | look => exact h.look _
  | join hc hh _ => exact (h.look _).join hc hh _
  | make hc hh hl => exact (h.look _).make hc hh hl
  | part hc hh hl => exact (h.look _).part hc hh hl _
  | forget hc hh hnil hi =>
    exact (h.look _).forget hc hh hnil fun j hj => Option.some.inj (hj.symm.trans hi)
  | putUp hc hclient => exact h.putUp hc hclient _
  | takeBack hc => exact h.takeBack hc _
  | takeDown hc hclient => exact h.takeDown hc hclient _
  | strand hc => exact h.strand hc _

/-- **Each move keeps an interplay orderly.** -/
theorem Orderly.step (h : s.Orderly p) {m : Move κ ω} (hs : s.step p m = some s') :
    s'.Orderly p :=
  h.effect (step_effect hs)

/-- **An interplay stays orderly**, whatever moves are made. -/
theorem Orderly.run (h : s.Orderly p) {ms : List (Move κ ω)} (hs : s.run p ms = some s') :
    s'.Orderly p := by
  induction ms generalizing s with
  | nil => exact Option.some.inj hs ▸ h
  | cons m ms ih =>
    obtain ⟨t, ht, hs⟩ := Option.bind_eq_some_iff.1 hs
    exact ih (h.step ht) hs

theorem orderly_begin {id : Nat}
    (hnew : ∀ k, ∀ l ∈ (p.audience client).of k, l.isOf id = false) :
    (begin client id).Orderly p where
  queue := queue_empty
  phase _ _ hn := nomatch hn
  settled k := by
    have hnil : (begin client id).listenersAt p k = [] :=
      List.filter_eq_nil_iff.2 fun l hl => Bool.eq_false_iff.1 (hnew k l hl)
    refine ⟨nofun, fun _ => rfl, ?_, fun l hl => ?_, nofun⟩
    · rw [hnil]
      exact List.nodup_nil
    · rw [hnil] at hl
      exact nomatch hl

end Discovery.Registry.Services.Interplay
