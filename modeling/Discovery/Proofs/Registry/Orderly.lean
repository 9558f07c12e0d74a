import Discovery.Proofs.Locks.Sound
import Discovery.Proofs.Registry.Interplay

/-!
# Orderly interplays

What holds of a registry over the tree between any two moves, however its calls interleave.  Let
`place` say at which path the node of a key is.

* The locks are sound, and each call that has passed its lock holds it (`Visiting`).
* A key has a listener exactly when it has consumers, and no consumer twice.
* The registry's watches for a key are none, or one at the place of the key.  In that case its
  listener is the one that the registry keeps for the key, or one that a call is taking down
  (`Watched`).

A call that has passed its lock has the key for itself (`Orderly.unique`), so what it does there
cannot get in the way of another one (`Orderly.advance`).
-/

namespace Discovery.Registry

/-- Whether a call has passed its lock. -/
def Nodes.Call.inside : Nodes.Call → Bool
  | .watch _ _ | .read _ | .hand _ _ | .unwatch _ _ => true
  | _ => false

/-- What a call that has passed its lock has done to its key. -/
def Core.Phase (k : Core) : Nodes.Call → Prop
  | .watch v l => v.consumer ∈ k.roster.consumers v.key ∧
      ∃ i, k.listeners.get? v.key = some i ∧ l = k.listener v.key i
  | .read v | .hand v _ => v.consumer ∈ k.roster.consumers v.key
  | .unwatch v l => k.roster.consumers v.key = [] ∧ ∃ i, l = k.listener v.key i
  | _ => True

/-- A call on a key: it is about the place of the key, and has a claim on the lock of the key,
which is held once it has passed the lock. -/
structure Core.Visiting (place : String → String) (k : Core) (c : Nodes.Call) (v : Visit) :
    Prop where
  path : v.path = place v.key
  claim : ∃ x ∈ k.locks.claims, x.ticket = v.ticket ∧ x.key = v.key ∧
    (c.inside = true → x.held = true)
  phase : k.Phase c

namespace Interplay

abbrev core (s : Interplay) : Core :=
  s.registry.core

abbrev consumers (s : Interplay) (k : String) : List Consumer :=
  s.core.roster.consumers k

/-- The watches of the registry for a key on a path. -/
def watchesFor (s : Interplay) (k p : String) : List Tree.Watch :=
  (s.server.tree.watchesAt p).filter (·.listener.isFor s.core.id k)

/-- Who a watch for a key is there for: the listener that the registry keeps for the key, or one
that a call is taking down. -/
def Backed (s : Interplay) (k : String) (i : Nat) : Prop :=
  s.core.listeners.get? k = some i ∨
    ∃ n v, s.calls n = some (.unwatch v (s.core.listener k i))

/-- The registry's watches for a key are none, or one at the place of the key. -/
def Watched (place : String → String) (s : Interplay) (k p : String) : Prop :=
  s.watchesFor k p = [] ∨ p = place k ∧ ∃ i,
    s.watchesFor k p = [⟨s.registry.session, s.core.listener k i⟩] ∧ s.Backed k i

/-- **An orderly interplay.** -/
structure Orderly (place : String → String) (s : Interplay) : Prop where
  kind : s.core.kind = Nodes.kind
  isOpen : s.server.isClosed s.registry.session = false
  locks : s.core.locks.Sound
  nodup : ∀ k, (s.consumers k).Nodup
  listed : ∀ k, s.core.hasListener k = true ↔ s.consumers k ≠ []
  /-- No two calls share a ticket. -/
  ticket : ∀ n n' c c' v v', s.calls n = some c → s.calls n' = some c' →
    c.visit? = some v → c'.visit? = some v' → v.ticket = v'.ticket → n = n'
  visiting : ∀ n c v, s.calls n = some c → c.visit? = some v → s.core.Visiting place c v
  watched : ∀ k p, s.Watched place k p

/-- Two states agree about a key. -/
def SameAt (s s' : Interplay) (k : String) : Prop :=
  s'.consumers k = s.consumers k ∧ s'.core.listeners.get? k = s.core.listeners.get? k ∧
    ∀ p, s'.watchesFor k p = s.watchesFor k p

variable {place : String → String} {s s' : Interplay} {n n' : Nat} {c c' : Nodes.Call}
  {v v' : Visit}

theorem watchesFor_congr (hid : s'.core.id = s.core.id) {p : String}
    (hw : s'.server.tree.watchesAt p = s.server.tree.watchesAt p) (k : String) :
    s'.watchesFor k p = s.watchesFor k p := by
  unfold watchesFor
  rw [hid, hw]

theorem listener_congr (hid : s'.core.id = s.core.id) (k : String) (i : Nat) :
    s'.core.listener k i = s.core.listener k i := by
  unfold Core.listener
  rw [hid]

/-! ### Holders -/

theorem Orderly.holds_of_inside (h : s.Orderly place) (hc : s.calls n = some c)
    (hv : c.visit? = some v) (hi : c.inside = true) : s.core.locks.holds v.ticket = true := by
  obtain ⟨x, hx, ht, _, hh⟩ := (h.visiting n c v hc hv).claim
  exact h.locks.holds_iff.2 ⟨x, hx, ht, hh hi⟩

/-- **Of the calls on a key at most one has its lock.** -/
theorem Orderly.unique (h : s.Orderly place) (hc : s.calls n = some c)
    (hc' : s.calls n' = some c') (hv : c.visit? = some v) (hv' : c'.visit? = some v')
    (hh : s.core.locks.holds v.ticket = true) (hh' : s.core.locks.holds v'.ticket = true)
    (hk : v.key = v'.key) : n = n' := by
  obtain ⟨x, hx, ht, hxk, _⟩ := (h.visiting n c v hc hv).claim
  obtain ⟨x', hx', ht', hxk', _⟩ := (h.visiting n' c' v' hc' hv').claim
  obtain ⟨y, hy, hyt, hyh⟩ := h.locks.holds_iff.1 hh
  obtain ⟨y', hy', hyt', hyh'⟩ := h.locks.holds_iff.1 hh'
  rw [h.locks.eq_of_ticket hy hx (hyt.trans ht.symm)] at hyh
  rw [h.locks.eq_of_ticket hy' hx' (hyt'.trans ht'.symm)] at hyh'
  have hxx := h.locks.exclusive hx hx' hyh hyh' (hxk.trans (hk.trans hxk'.symm))
  exact h.ticket n n' c c' v v' hc hc' hv hv' (ht.symm.trans (hxx ▸ ht'))

theorem Orderly.key_of_unwatch (h : s.Orderly place) {k : String} {i : Nat}
    (hc : s.calls n = some (.unwatch v (s.core.listener k i))) : v.key = k := by
  obtain ⟨_, j, hj⟩ := (h.visiting n _ v hc rfl).phase
  exact (Core.listener_inj hj).1.symm

/-! ### Frames -/

theorem Core.Phase.of_same {k k' : Core} (h : k.Phase c) (hv : c.visit? = some v)
    (hid : k'.id = k.id) (hcons : k'.roster.consumers v.key = k.roster.consumers v.key)
    (hlist : k'.listeners.get? v.key = k.listeners.get? v.key) : k'.Phase c := by
  have hl : ∀ a i, k'.listener a i = k.listener a i := by
    intro a i
    unfold Core.listener
    rw [hid]
  cases c <;> cases hv <;> simp only [Core.Phase, hcons, hlist, hl] at h ⊢ <;> exact h

/-- What counts is the calls on keys, the watches and the registry up to what it has counted. -/
theorem Orderly.frame (h : s.Orderly place) {m : Meter}
    (hr : s'.registry = s.registry.withMeter m)
    (hc : ∀ n c v, c.visit? = some v → (s'.calls n = some c ↔ s.calls n = some c))
    (hw : ∀ k p, s'.watchesFor k p = s.watchesFor k p)
    (ho : s'.server.isClosed s.registry.session = false) : s'.Orderly place := by
  obtain ⟨v, r, calls, heard, conduct⟩ := s'
  dsimp only at hr hc
  subst hr
  refine ⟨h.kind, ho, h.locks, h.nodup, h.listed, fun n n' c c' v v' hn hn' hv hv' => ?_,
    fun n c v hn hv => ?_, fun k p => ?_⟩
  · exact h.ticket n n' c c' v v' ((hc n c v hv).1 hn) ((hc n' c' v' hv').1 hn') hv hv'
  · obtain ⟨hp, hcl, hph⟩ := h.visiting n c v ((hc n c v hv).1 hn) hv
    exact ⟨hp, hcl, Core.Phase.of_same hph hv rfl rfl rfl⟩
  · unfold Watched
    rw [hw k p]
    rcases h.watched k p with hnil | ⟨hp, i, hi, hb⟩
    · exact .inl hnil
    · refine .inr ⟨hp, i, hi, hb.imp id ?_⟩
      rintro ⟨n, v, hn⟩
      exact ⟨n, v, (hc n _ v rfl).2 hn⟩

/-- **A call goes on.**  What it changes is its own: its claim, and if it has the lock, its key. -/
theorem Orderly.advance (h : s.Orderly place) (hc : s.calls n = some c) (hv : c.visit? = some v)
    {d : Option Nodes.Call} (hkind : s'.core.kind = s.core.kind) (hid : s'.core.id = s.core.id)
    (hsession : s'.registry.session = s.registry.session)
    (hopen : s'.server.isClosed s.registry.session = false) (hlocks : s'.core.locks.Sound)
    (hclaims : ∀ x ∈ s.core.locks.claims, x.ticket ≠ v.ticket → x ∈ s'.core.locks.claims)
    (hcalls : s'.calls = Function.update s.calls n d)
    (hd : ∀ c', d = some c' → c'.visit? = some v ∧ s'.core.Visiting place c' v)
    (hother : ∀ k, k ≠ v.key → s.SameAt s' k)
    (hheld : s.core.locks.holds v.ticket = true)
    (hnodup : (s'.consumers v.key).Nodup)
    (hlisted : s'.core.hasListener v.key = true ↔ s'.consumers v.key ≠ [])
    (hwatched : ∀ p, s'.Watched place v.key p) : s'.Orderly place := by
  have hcall : ∀ m e, s'.calls m = some e →
      (m = n ∧ d = some e) ∨ (m ≠ n ∧ s.calls m = some e) := by
    intro m e hm
    rw [hcalls, Function.update_apply] at hm
    split at hm
    · next hmn => exact .inl ⟨hmn, hm⟩
    · next hmn => exact .inr ⟨hmn, hm⟩
  have hlistener := listener_congr hid
  refine ⟨hkind.trans h.kind, by rw [hsession]; exact hopen, hlocks, fun k => ?_, fun k => ?_,
    ?_, ?_, fun k p => ?_⟩
  · by_cases hk : k = v.key
    · rw [hk]; exact hnodup
    · rw [(hother k hk).1]; exact h.nodup k
  · by_cases hk : k = v.key
    · rw [hk]; exact hlisted
    · have hl := h.listed k
      unfold Core.hasListener Table.contains at hl ⊢
      rw [(hother k hk).1, (hother k hk).2.1]
      exact hl
  · intro m m' e e' w w' hm hm' hw hw' ht
    -- the call that goes on keeps its ticket
    have hold : ∀ m e w, s'.calls m = some e → e.visit? = some w →
        ∃ e₀, s.calls m = some e₀ ∧ e₀.visit? = some w := by
      intro m e w hm hw
      rcases hcall m e hm with ⟨rfl, hde⟩ | ⟨_, hm⟩
      · rw [(hd e hde).1, Option.some.injEq] at hw
        exact ⟨c, hc, hw ▸ hv⟩
      · exact ⟨e, hm, hw⟩
    obtain ⟨e₀, he₀, hw₀⟩ := hold m e w hm hw
    obtain ⟨e₁, he₁, hw₁⟩ := hold m' e' w' hm' hw'
    exact h.ticket m m' e₀ e₁ w w' he₀ he₁ hw₀ hw₁ ht
  · intro m e w hm hw
    rcases hcall m e hm with ⟨_, hde⟩ | ⟨hmn, hm⟩
    · obtain ⟨hev, hvis⟩ := hd e hde
      rw [hev, Option.some.injEq] at hw
      exact hw ▸ hvis
    · obtain ⟨hp, ⟨x, hx, hxt, hxk, hxh⟩, hph⟩ := h.visiting m e w hm hw
      refine ⟨hp, ⟨x, hclaims x hx ?_, hxt, hxk, hxh⟩, ?_⟩
      · intro ht
        exact hmn (h.ticket m n e c w v hm hc hw hv (hxt.symm.trans ht))
      · by_cases hk : w.key = v.key
        · -- the key is taken, so the other call still waits for it
          have hout : e.inside = false := by
            rw [Bool.eq_false_iff]
            intro hi
            exact hmn (h.unique hm hc hw hv (h.holds_of_inside hm hw hi) hheld hk)
          cases e <;> trivial
        · exact Core.Phase.of_same hph hw hid (hother _ hk).1 (hother _ hk).2.1
  · by_cases hk : k = v.key
    · rw [hk]; exact hwatched p
    · unfold Watched Backed
      rw [(hother k hk).2.2 p, (hother k hk).2.1, hsession]
      rcases h.watched k p with hnil | ⟨hp, i, hi, hb⟩
      · exact .inl hnil
      · refine .inr ⟨hp, i, by rw [hlistener]; exact hi, ?_⟩
        rcases hb with hb | ⟨m, w, hm⟩
        · exact .inl hb
        · refine .inr ⟨m, w, ?_⟩
          have hmn : m ≠ n := by
            rintro rfl
            rw [hc, Option.some.injEq] at hm
            subst hm
            cases hv
            exact hk (h.key_of_unwatch hc).symm
          rw [hcalls, Function.update_of_ne hmn, hlistener]
          exact hm

end Interplay

end Discovery.Registry
