import Discovery.Proofs.Locks.Line
import Discovery.Registry.Core
import Mathlib.Logic.Function.Basic

/-!
# Visits in line

The calls of a registry that attach and detach consumers line up for the locks of their keys.
`Queue locks visits` ties the locks to the calls in progress: `visits` gives the visit of the call
under each number, and whether the call has passed its lock.

* `Queue.unique`: of the visits to a key at most one has passed its lock.
* `Queue.line`, `Queue.look`, `Queue.enter`, `Queue.depart`: a call lines up, looks whether its turn
  has come, passes its lock and gives it up.
-/

namespace Discovery.Registry

/-- **Calls in line**: the locks are sound, no two visits share a ticket, and each visit has a claim
on the lock of its key, which is held once the call has passed the lock. -/
structure Queue (locks : Locks) (visits : Nat → Option (Visit × Bool)) : Prop where
  sound : locks.Sound
  ticket : ∀ {n n' : Nat} {v v' : Visit} {b b' : Bool}, visits n = some (v, b) →
    visits n' = some (v', b') → v.ticket = v'.ticket → n = n'
  claim : ∀ {n : Nat} {v : Visit} {b : Bool}, visits n = some (v, b) →
    ∃ x ∈ locks.claims, x.ticket = v.ticket ∧ x.key = v.key ∧ (b = true → x.held = true)

theorem queue_empty : Queue ∅ fun _ => none where
  sound := Locks.sound_empty
  ticket h := nomatch h
  claim h := nomatch h

namespace Queue

variable {locks : Locks} {visits : Nat → Option (Visit × Bool)} {n n' : Nat} {v v' : Visit}
  {b b' : Bool}

theorem holds (h : Queue locks visits) (hn : visits n = some (v, true)) :
    locks.holds v.ticket = true := by
  obtain ⟨x, hx, ht, _, hh⟩ := h.claim hn
  exact h.sound.holds_iff.2 ⟨x, hx, ht, hh rfl⟩

theorem heldClaim (h : Queue locks visits) (hn : visits n = some (v, b))
    (hh : locks.holds v.ticket = true) :
    ∃ x ∈ locks.claims, x.ticket = v.ticket ∧ x.key = v.key ∧ x.held = true := by
  obtain ⟨x, hx, ht, hk, _⟩ := h.claim hn
  obtain ⟨y, hy, hyt, hyh⟩ := h.sound.holds_iff.1 hh
  rw [h.sound.eq_of_ticket hy hx (hyt.trans ht.symm)] at hyh
  exact ⟨x, hx, ht, hk, hyh⟩

/-- **Of the visits to a key at most one holds the lock.** -/
theorem unique (h : Queue locks visits) (hn : visits n = some (v, b))
    (hn' : visits n' = some (v', b')) (hh : locks.holds v.ticket = true)
    (hh' : locks.holds v'.ticket = true) (hk : v.key = v'.key) : n = n' := by
  obtain ⟨x, hx, ht, hxk, hxh⟩ := h.heldClaim hn hh
  obtain ⟨x', hx', ht', hxk', hxh'⟩ := h.heldClaim hn' hh'
  have hxx := h.sound.exclusive hx hx' hxh hxh' (hxk.trans (hk.trans hxk'.symm))
  exact h.ticket hn hn' (ht.symm.trans (hxx ▸ ht'))

theorem ticket_lt (h : Queue locks visits) (hn : visits n = some (v, b)) :
    v.ticket < locks.nextTicket := by
  obtain ⟨x, hx, ht, _⟩ := h.claim hn
  exact ht ▸ h.sound.ticket_lt x hx

/-! ### Changes -/

theorem look (h : Queue locks visits) (t : Nat) : Queue (locks.poll t) visits where
  sound := h.sound.poll t
  ticket := h.ticket
  claim hn := by
    obtain ⟨x, hx, hxt, hxk, hxh⟩ := h.claim hn
    obtain ⟨y, hy, hyt, hyk, hyh⟩ := Locks.exists_mem_claims_poll h.sound t hx
    exact ⟨y, hy, hyt.trans hxt, hyk.trans hxk, fun hb => hyh (hxh hb)⟩

/-- **A call lines up** with a new ticket. -/
theorem line (h : Queue locks visits) (n : Nat) (hv : v.ticket = locks.nextTicket) :
    Queue (locks.request v.key).1 (Function.update visits n (some (v, false))) where
  sound := h.sound.request v.key
  ticket {m m' w w' b b'} hm hm' ht := by
    rw [Function.update_apply] at hm hm'
    split at hm <;> split at hm'
    · next hmn hmn' => exact hmn.trans hmn'.symm
    · cases hm
      exact absurd (h.ticket_lt hm') (by rw [← ht, hv]; exact Nat.lt_irrefl _)
    · cases hm'
      exact absurd (h.ticket_lt hm) (by rw [ht, hv]; exact Nat.lt_irrefl _)
    · exact h.ticket hm hm' ht
  claim {m w b} hm := by
    rw [Function.update_apply] at hm
    split at hm
    · cases hm
      exact ⟨locks.newClaim v.key, (Locks.mem_claims_request h.sound).2 (.inr rfl), hv.symm, rfl,
        fun hb => nomatch hb⟩
    · obtain ⟨x, hx, hxs⟩ := h.claim hm
      exact ⟨x, (Locks.mem_claims_request h.sound).2 (.inl hx), hxs⟩

/-- **A call passes its lock.** -/
theorem enter (h : Queue locks visits) (hn : visits n = some (v, b))
    (hh : locks.holds v.ticket = true) :
    Queue locks (Function.update visits n (some (v, true))) where
  sound := h.sound
  ticket {m m' w w' c c'} hm hm' ht := by
    rw [Function.update_apply] at hm hm'
    split at hm <;> split at hm'
    · next hmn hmn' => exact hmn.trans hmn'.symm
    · next hmn _ =>
      cases hm
      exact hmn.trans (h.ticket hn hm' ht)
    · next _ hmn' =>
      cases hm'
      exact (h.ticket hm hn ht).trans hmn'.symm
    · exact h.ticket hm hm' ht
  claim {m w c} hm := by
    rw [Function.update_apply] at hm
    split at hm
    · cases hm
      obtain ⟨x, hx, hxt, hxk, hxh⟩ := h.heldClaim hn hh
      exact ⟨x, hx, hxt, hxk, fun _ => hxh⟩
    · exact h.claim hm

/-- **A call is over, and its lock is free again.** -/
theorem depart (h : Queue locks visits) (hn : visits n = some (v, b)) :
    Queue (locks.drop v.ticket) (Function.update visits n none) where
  sound := h.sound.drop v.ticket
  ticket {m m' w w' c c'} hm hm' ht := by
    rw [Function.update_apply] at hm hm'
    split at hm <;> split at hm'
    · exact nomatch hm
    · exact nomatch hm
    · exact nomatch hm'
    · exact h.ticket hm hm' ht
  claim {m w c} hm := by
    rw [Function.update_apply] at hm
    split at hm
    · exact nomatch hm
    · next hmn =>
      obtain ⟨x, hx, hxt, hxs⟩ := h.claim hm
      refine ⟨x, (Locks.mem_claims_drop h.sound).2 ⟨hx, fun ht => ?_⟩, hxt, hxs⟩
      exact hmn (h.ticket hm hn (hxt.symm.trans ht))

end Queue

end Discovery.Registry
