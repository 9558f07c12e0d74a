import Discovery.Proofs.Services.Moves

/-!
# One listener for each key

While no call on a key is in progress and no listener is lost, the naming client has a listener of
the registry at the service of the key if and only if the registry keeps one for the key, and not
more than that one.  A key with consumers may be without, since the request that was to put a
listener up may have failed; but once such a request has succeeded, the key has a listener as long
as it has consumers.

* `Orderly.served_effect`: no move takes the listener away from a key with consumers.
* `one_listener_of_run`: what can be said of the listeners after any run.
-/

namespace Discovery.Registry.Services.Interplay

open Naming (Provider)

variable {κ ω : Type} {p : Provider κ ω} {s s' : Interplay κ} {m : Move κ ω} {k : String}

/-! ### Keys that are served -/

/-- The listener that the registry keeps for a key is up. -/
def Served (p : Provider κ ω) (s : Interplay κ) (k : String) : Prop :=
  ∃ i, s.core.listeners.get? k = some i ∧ s.core.listener k i ∈ s.listenersAt p k

theorem Served.of_subset (h : s.Served p k) (hl : s.Later s')
    (hlist : s'.core.listeners.get? k = s.core.listeners.get? k)
    (hat : s.listenersAt p k ⊆ s'.listenersAt p k) : s'.Served p k := by
  obtain ⟨i, hi, hmem⟩ := h
  exact ⟨i, hlist.trans hi, hl.listener k i ▸ hat hmem⟩

theorem Effect.later (he : Effect p s m s') : s.Later s' := by
  cases he with
  | beside hb =>
    obtain ⟨m, hm⟩ := hb.core
    exact ⟨by rw [hm]; rfl, by rw [hm]; exact Nat.le_refl _, by rw [hb.lost]; exact fun _ h => h⟩
  | make => exact ⟨rfl, Nat.le_succ _, fun _ h => h⟩
  | @takeBack n why v l m hc =>
    have htaken : (s.takenBack v l).core.id = s.core.id ∧
        (s.takenBack v l).core.nextSerial = s.core.nextSerial := by
      unfold takenBack Services.takeBack
      dsimp only
      split <;> exact ⟨rfl, rfl⟩
    exact ⟨htaken.1, Nat.le_of_eq htaken.2.symm, fun _ h => h⟩
  | strand => exact ⟨rfl, Nat.le_refl _, List.subset_append_left _ _⟩
  | _ => exact ⟨rfl, Nat.le_refl _, fun _ h => h⟩

/-- **No move takes the listener away from a key with consumers.** -/
theorem Orderly.served_effect (h : s.Orderly p) (he : Effect p s m s') (hk : s.Served p k)
    (hcons : s'.consumers k ≠ []) : s'.Served p k := by
  have hl := he.later
  cases he with
  | beside hb =>
    obtain ⟨m, hm⟩ := hb.core
    exact hk.of_subset hl (by rw [hm]; rfl) (by rw [hb.listeners]; exact fun _ h => h)
  | @make n w v hc hh hnone =>
    refine hk.of_subset hl (Table.get?_insert_of_ne _ _ ?_) fun _ h => h
    rintro rfl
    obtain ⟨i, hi, _⟩ := hk
    exact nomatch hnone.symm.trans hi
  | @forget n i w v hc hh hnil hi =>
    refine hk.of_subset hl (Table.get?_erase_of_ne _ ?_) fun _ h => h
    rintro rfl
    exact hcons hnil
  | @putUp n w v l client m hc hclient =>
    obtain ⟨_, hnot, i, _, hi⟩ := h.phase n _ hc
    refine hk.of_subset hl rfl fun x hx => ?_
    show x ∈ ({ s with client } : Interplay κ).listenersAt p k
    rw [listenersAt_add hclient (by rw [hi]; exact isOf_listener _ _ _) hnot]
    split
    · next hkv => exact List.mem_append_left _ (hkv ▸ hx)
    · exact hx
  | @takeBack n why v l m hc =>
    obtain ⟨_, hnot, i, hi, he⟩ := h.phase n _ hc
    have hkv : k ≠ v.key := by
      rintro rfl
      -- the listener that the call was to put up is not up
      obtain ⟨j, hj, hmem⟩ := hk
      obtain rfl := Option.some.inj (hi.symm.trans hj)
      exact hnot (he ▸ hmem)
    refine hk.of_subset hl ?_ ?_ <;> rw [takenBack_eq hi he]
    · exact Table.get?_erase_of_ne _ hkv
    · exact fun _ h => h
  | @takeDown n w v l client m hc hclient =>
    have hkv : k ≠ v.key := by
      rintro rfl
      exact hcons (h.phase n _ hc).1
    refine hk.of_subset hl rfl fun x hx => ?_
    show x ∈ ({ s with client } : Interplay κ).listenersAt p k
    rw [listenersAt_remove hclient, if_neg hkv]
    exact hx
  | _ => exact hk.of_subset hl rfl fun _ h => h

/-! ### Runs -/

theorem run_append (s : Interplay κ) (ms ms' : List (Move κ ω)) :
    s.run p (ms ++ ms') = (s.run p ms).bind fun t => t.run p ms' :=
  List.foldlM_append

theorem later_run {ms : List (Move κ ω)} (hs : s.run p ms = some s') : s.Later s' := by
  induction ms generalizing s with
  | nil =>
    obtain rfl := Option.some.inj hs
    exact ⟨rfl, Nat.le_refl _, fun _ h => h⟩
  | cons m ms ih =>
    obtain ⟨t, ht, hs⟩ := Option.bind_eq_some_iff.1 hs
    have hl := (step_effect ht).later
    have hl' := ih hs
    exact ⟨hl'.id.trans hl.id, hl.serial.trans hl'.serial, fun _ h => hl'.lost (hl.lost h)⟩

theorem Orderly.served_run (h : s.Orderly p) {ms : List (Move κ ω)} (hs : s.run p ms = some s')
    (hcons : ∀ mid, mid <+: ms → ∀ t, s.run p mid = some t → t.consumers k ≠ [])
    (hk : s.Served p k) : s'.Served p k := by
  induction ms generalizing s with
  | nil => exact Option.some.inj hs ▸ hk
  | cons m ms ih =>
    obtain ⟨t, ht, hs⟩ := Option.bind_eq_some_iff.1 hs
    have hrun : ∀ mid, s.run p (m :: mid) = t.run p mid := fun mid => by
      show (s.step p m).bind _ = _
      rw [ht]
      rfl
    have htk : t.Served p k := h.served_effect (step_effect ht) hk
      (hcons [m] ⟨ms, rfl⟩ t (hrun []))
    exact ih (h.step ht) hs
      (fun mid hmid u hu => hcons (m :: mid) (hmid.imp fun _ h => congrArg (m :: ·) h) u
        ((hrun mid).trans hu)) htk

/-- In a run a request to put up a listener for a key succeeds, and the key has had consumers
since. -/
def Secured (p : Provider κ ω) (s : Interplay κ) (k : String) (ms : List (Move κ ω)) : Prop :=
  ∃ before n w after u v l, ms = before ++ .go n w :: after ∧ s.run p before = some u ∧
    u.calls n = some (.subscribe v l) ∧ v.key = k ∧
      ∀ mid, mid <+: after → ∀ t, u.run p (.go n w :: mid) = some t → t.consumers k ≠ []

theorem Orderly.served_of_secured (h : s.Orderly p) {ms : List (Move κ ω)}
    (hs : s.run p ms = some s') (hk : s.Secured p k ms) : s'.Served p k := by
  obtain ⟨before, n, w, after, u, v, l, rfl, hu, hc, rfl, hsince⟩ := hk
  rw [run_append, hu] at hs
  have hu' := h.run hu
  obtain ⟨_, hnot, i, hi, hl⟩ := hu'.phase n _ hc
  have hclient := p.audience_subscribe u.client w v.key l
  have hgo : u.step p (.go n w) = some (({ u with
      client := (p.answer u.client w (.subscribe v.key l)).1 } : Interplay κ).leave n v
        u.core.roster.meter) := by
    show (u.calls n).map (u.go p n w) = _
    rw [hc, Option.map_some, go_ask rfl (p.reply _ _ _ _ rfl)]
    rfl
  have hrun : ∀ mid, u.run p (.go n w :: mid) = Interplay.run p (({ u with
      client := (p.answer u.client w (.subscribe v.key l)).1 } : Interplay κ).leave n v
        u.core.roster.meter) mid := fun mid => by
    show (u.step p (.go n w)).bind _ = _
    rw [hgo]
    rfl
  refine (hu'.putUp hc hclient _).served_run ((hrun after).symm.trans hs)
    (fun mid hmid t ht => hsince mid hmid t ((hrun mid).trans ht)) ⟨i, hi, ?_⟩
  show _ ∈ ({ u with client := _ } : Interplay κ).listenersAt p v.key
  rw [listenersAt_add hclient (by rw [hl]; exact isOf_listener _ _ _) hnot, if_pos rfl, hl]
  exact List.mem_append_right _ (List.mem_singleton_self _)

/-! ### Keys at rest -/

/-- While no call on a key is in progress, the registry's listeners at its service are the one that
it keeps for the key and those that are lost. -/
theorem Orderly.kept_or_lost (h : s.Orderly p)
    (hidle : ∀ n c v, s.calls n = some c → c.visit? = some v → v.key ≠ k) {l : Listener}
    (hl : l ∈ s.listenersAt p k) :
    ∃ i, l = s.core.listener k i ∧ (s.core.listeners.get? k = some i ∨ l ∈ s.lost) := by
  obtain ⟨i, _, rfl, hb⟩ := (h.settled k).backed l hl
  refine ⟨i, rfl, ?_⟩
  rcases hb with hb | ⟨n, v, hn, hv⟩ | hb
  · exact .inl hb
  · exact absurd hv (hidle n _ v hn rfl)
  · exact .inr hb

/-- While no call on a key is in progress, the listener that the registry keeps for it is up. -/
theorem Orderly.up_of_idle (h : s.Orderly p)
    (hidle : ∀ n c v, s.calls n = some c → c.visit? = some v → v.key ≠ k) {i : Nat}
    (hi : s.core.listeners.get? k = some i) : s.core.listener k i ∈ s.listenersAt p k := by
  refine ((h.settled k).up i hi).resolve_right ?_
  rintro ⟨n, v, hn, hv⟩
  exact hidle n _ v hn rfl hv

/-- **One listener for each key.**  However calls interleave and whichever requests to put up a
listener fail, if no request to take one down has failed, then while no call on a key is in
progress: the naming client has a listener of the registry at the service of the key if and only if
the registry keeps one for the key, and has no more than one; there is none if the key has no
consumers; and there is one if a request to put one up has succeeded and the key has had consumers
since. -/
theorem one_listener_of_run {client : κ} {id : Nat} {ms : List (Move κ ω)}
    (hnew : ∀ k, ∀ l ∈ (p.audience client).of k, l.isOf id = false)
    (hrun : (begin client id).run p ms = some s) (hlost : s.lost = [])
    (hidle : ∀ n c v, s.calls n = some c → c.visit? = some v → v.key ≠ k) :
    (s.core.hasListener k = true ↔ s.listenersAt p k ≠ []) ∧
      (s.listenersAt p k).length ≤ 1 ∧
      (s.core.roster.count k = 0 → s.core.hasListener k = false) ∧
      ((begin client id).Secured p k ms → s.core.hasListener k = true) := by
  have h₀ : (begin client id).Orderly p := orderly_begin hnew
  have h := h₀.run hrun
  have hkept : ∀ l ∈ s.listenersAt p k, ∃ i, l = s.core.listener k i ∧
      s.core.listeners.get? k = some i := by
    intro l hl
    obtain ⟨i, hi, hb⟩ := h.kept_or_lost hidle hl
    exact ⟨i, hi, hb.resolve_right (hlost ▸ List.not_mem_nil)⟩
  have hhas : s.core.hasListener k = true ↔ ∃ i, s.core.listeners.get? k = some i :=
    Option.isSome_iff_exists
  refine ⟨?_, ?_, fun hzero => ?_, fun hsec => ?_⟩
  · rw [hhas]
    constructor
    · rintro ⟨i, hi⟩
      exact List.ne_nil_of_mem (h.up_of_idle hidle hi)
    · intro hne
      obtain ⟨l, hl⟩ := List.exists_mem_of_ne_nil _ hne
      obtain ⟨i, _, hi⟩ := hkept l hl
      exact ⟨i, hi⟩
  · -- all of them are the listener that the registry keeps
    have hnodup := (h.settled k).nodup
    match hat : s.listenersAt p k with
    | [] => exact Nat.zero_le 1
    | [_] => exact Nat.le_refl 1
    | a :: b :: ls =>
      obtain ⟨i, ha, hi⟩ := hkept a (by rw [hat]; exact List.mem_cons_self)
      obtain ⟨j, hb, hj⟩ := hkept b (by rw [hat]; exact List.mem_cons_of_mem _ List.mem_cons_self)
      obtain rfl := Option.some.inj (hi.symm.trans hj)
      rw [hat, ha, hb] at hnodup
      exact absurd List.mem_cons_self (List.nodup_cons.1 hnodup).1
  · have hnil : s.consumers k = [] := List.eq_nil_of_length_eq_zero hzero
    unfold Core.hasListener Table.contains
    rw [(h.settled k).attended hnil]
    rfl
  · obtain ⟨i, hi, _⟩ := h₀.served_of_secured hrun hsec
    exact hhas.2 ⟨i, hi⟩

def shop : Endpoint := ⟨"h", 1, ["a"], ∅⟩

/-- Two consumers subscribe at once.  The request of the first one fails, so the second one puts a
listener up, and the first one goes. -/
def overlapping : List (Move Naming.Directory Unit) :=
  [.start 0 (.subscribe shop "c"), .start 1 (.subscribe shop "d"), .go 0 (), .go 1 (),
    .fail 0 (.backend "down"), .go 1 (), .start 0 (.unsubscribe shop "c"), .go 1 (), .go 0 ()]

theorem one_listener_of_overlapping : ∃ s,
    (begin (∅ : Naming.Directory) 7).run Naming.Directory.provider overlapping = some s ∧
      s.core.roster.count "nacos://h:1/a" = 1 ∧ s.core.hasListener "nacos://h:1/a" = true ∧
      (s.listenersAt Naming.Directory.provider "nacos://h:1/a").length = 1 := by
  obtain ⟨s, hs, hcalls, hcount, hlost⟩ : ∃ s,
      (begin (∅ : Naming.Directory) 7).run Naming.Directory.provider overlapping = some s ∧
        (∀ n, s.calls n = none) ∧ s.core.roster.count "nacos://h:1/a" = 1 ∧ s.lost = [] := by
    refine ⟨_, rfl, fun n => ?_, by decide, rfl⟩
    match n with
    | 0 => rfl
    | 1 => rfl
    | _ + 2 => rfl
  have hsecured : (begin (∅ : Naming.Directory) 7).Secured Naming.Directory.provider
      "nacos://h:1/a" overlapping := by
    refine ⟨overlapping.take 7, 1, (), [.go 0 ()], _, _, _, rfl, rfl, rfl, by decide, ?_⟩
    intro mid hmid t ht
    rcases List.prefix_cons_iff.1 hmid with rfl | ⟨_, rfl, hnil⟩
    · obtain rfl := Option.some.inj ht
      show _ ≠ _
      decide
    · obtain rfl := List.prefix_nil.1 hnil
      obtain rfl := Option.some.inj ht
      show _ ≠ _
      decide
  obtain ⟨hiff, hle, _, hsec⟩ := one_listener_of_run (k := "nacos://h:1/a")
    (fun k l hl => absurd hl List.not_mem_nil) hs hlost fun n c v hn =>
      (nomatch (hcalls n).symm.trans hn)
  have hhas := hsec hsecured
  exact ⟨s, hs, hcount, hhas, Nat.le_antisymm hle (List.length_pos_iff.2 (hiff.1 hhas))⟩

end Discovery.Registry.Services.Interplay
