import Discovery.Proofs.Services.Effect

/-!
# Orderly interplays over a naming client

What holds of a registry over a naming client between any two moves, however its calls interleave
and whichever of their requests fail.

* The calls that attach and detach consumers are in line for the locks of their keys.
* A call that has passed its lock has done to its key what it says (`Phase`).
* Of each key, the registry's listeners at the service are the one that it keeps for the key, one
  that a call is about to take down, and those that are lost (`Settled`).

A call that has passed its lock has the key for itself, so what it does there cannot get in the way
of another one (`Orderly.advance`).

* `Orderly.step`, `Orderly.run`: any move, and any run, keeps an interplay orderly.
-/

namespace Discovery.Registry.Services.Interplay

open Naming (Provider)

variable {κ ω : Type} {p : Provider κ ω} {s s' : Interplay κ} {n n' : Nat} {c c' : Call}
  {v v' : Visit} {l : Listener} {k : String}

/-- What a call that has passed its lock has done to its key. -/
def Phase (p : Provider κ ω) (s : Interplay κ) : Call → Prop
  | .subscribe v l => s.consumers v.key ≠ [] ∧ l ∉ s.listenersAt p v.key ∧
      ∃ i, s.core.listeners.get? v.key = some i ∧ l = s.core.listener v.key i
  | .unsubscribe v l => s.consumers v.key = [] ∧ ∃ i, l = s.core.listener v.key i
  | _ => True

/-- Why a listener of the registry is at a service: the registry keeps it for the key, a call is
about to take it down, or it is lost. -/
def Backed (s : Interplay κ) (k : String) (i : Nat) : Prop :=
  s.core.listeners.get? k = some i ∨
    (∃ n v, s.calls n = some (.unsubscribe v (s.core.listener k i)) ∧ v.key = k) ∨
      s.core.listener k i ∈ s.lost

/-- **What holds of a key.** -/
structure Settled (p : Provider κ ω) (s : Interplay κ) (k : String) : Prop where
  serial : ∀ i, s.core.listeners.get? k = some i → i < s.core.nextSerial
  attended : s.consumers k = [] → s.core.listeners.get? k = none
  nodup : (s.listenersAt p k).Nodup
  backed : ∀ l ∈ s.listenersAt p k, ∃ i < s.core.nextSerial, l = s.core.listener k i ∧ s.Backed k i
  /-- The listener that the registry keeps for the key is up, or a call is about to put it up. -/
  up : ∀ i, s.core.listeners.get? k = some i → s.core.listener k i ∈ s.listenersAt p k ∨
    ∃ n v, s.calls n = some (.subscribe v (s.core.listener k i)) ∧ v.key = k

/-- **An orderly interplay.** -/
structure Orderly (p : Provider κ ω) (s : Interplay κ) : Prop where
  queue : Queue s.core.locks (visits s.calls)
  phase : ∀ n c, s.calls n = some c → s.Phase p c
  settled : ∀ k, s.Settled p k

/-- Two states agree about a key. -/
def SameAt (p : Provider κ ω) (s s' : Interplay κ) (k : String) : Prop :=
  s'.consumers k = s.consumers k ∧ s'.core.listeners.get? k = s.core.listeners.get? k ∧
    s'.listenersAt p k = s.listenersAt p k

/-- The registry goes on: it stays itself, and serial numbers and lost listeners only get more. -/
structure Later (s s' : Interplay κ) : Prop where
  id : s'.core.id = s.core.id
  serial : s.core.nextSerial ≤ s'.core.nextSerial
  lost : s.lost ⊆ s'.lost

theorem Later.listener (h : s.Later s') (k : String) (i : Nat) :
    s'.core.listener k i = s.core.listener k i := by
  unfold Core.listener
  rw [h.id]

/-! ### Frames -/

theorem phase_of_outside (hi : c.inside = false) : s.Phase p c := by
  cases c <;> trivial

theorem visit?_of_inside (hi : c.inside = true) : ∃ v, c.visit? = some v := by
  cases c <;> first | exact ⟨_, rfl⟩ | exact nomatch hi

theorem Phase.of_same (h : s.Phase p c) (hl : s.Later s')
    (hsame : ∀ v, c.visit? = some v → c.inside = true → s.SameAt p s' v.key) : s'.Phase p c := by
  cases c with
  | subscribe v l =>
    obtain ⟨hcons, hlist, hat⟩ := hsame v rfl rfl
    obtain ⟨hne, hnot, i, hi, he⟩ := h
    exact ⟨by rw [hcons]; exact hne, by rw [hat]; exact hnot, i, hlist.trans hi,
      by rw [hl.listener]; exact he⟩
  | unsubscribe v l =>
    obtain ⟨hcons, _, _⟩ := hsame v rfl rfl
    obtain ⟨hnil, i, he⟩ := h
    exact ⟨hcons.trans hnil, i, by rw [hl.listener]; exact he⟩
  | _ => trivial

theorem Backed.mono {i : Nat} (h : s.Backed k i) (hl : s.Later s')
    (hlist : s'.core.listeners.get? k = s.core.listeners.get? k)
    (hcalls : ∀ n v l, s.calls n = some (.unsubscribe v l) → v.key = k →
      s'.calls n = some (.unsubscribe v l)) : s'.Backed k i := by
  unfold Backed
  rw [hl.listener, hlist]
  rcases h with h | ⟨n, v, hn, hk⟩ | h
  · exact .inl h
  · exact .inr (.inl ⟨n, v, hcalls n v _ hn hk, hk⟩)
  · exact .inr (.inr (hl.lost h))

theorem Settled.carry (h : s.Settled p k) (hl : s.Later s')
    (hlist : s'.core.listeners.get? k = s.core.listeners.get? k)
    (hat : s'.listenersAt p k = s.listenersAt p k)
    (hattended : s'.consumers k = [] → s.core.listeners.get? k = none)
    (hcalls : ∀ n c v, s.calls n = some c → c.visit? = some v → c.inside = true → v.key = k →
      s'.calls n = some c) : s'.Settled p k := by
  refine ⟨fun i hi => ?_, fun hnil => hlist.trans (hattended hnil), by rw [hat]; exact h.nodup,
    fun l hmem => ?_, fun i hi => ?_⟩
  · exact Nat.lt_of_lt_of_le (h.serial i (hlist.symm.trans hi)) hl.serial
  · rw [hat] at hmem
    obtain ⟨i, hi, he, hb⟩ := h.backed l hmem
    exact ⟨i, Nat.lt_of_lt_of_le hi hl.serial, by rw [hl.listener]; exact he,
      hb.mono hl hlist fun n v l hn hk => hcalls n _ v hn rfl rfl hk⟩
  · rw [hat, hl.listener]
    refine (h.up i (hlist.symm.trans hi)).imp_right ?_
    rintro ⟨n, v, hn, hk⟩
    exact ⟨n, v, hcalls n _ v hn rfl rfl hk, hk⟩

theorem Settled.of_same (h : s.Settled p k) (hl : s.Later s') (hsame : s.SameAt p s' k)
    (hcalls : ∀ n c v, s.calls n = some c → c.visit? = some v → c.inside = true → v.key = k →
      s'.calls n = some c) : s'.Settled p k :=
  h.carry hl hsame.2.1 hsame.2.2 (fun hnil => h.attended (hsame.1.symm.trans hnil)) hcalls

/-- What counts is the line for the locks, the calls that have passed their locks, and the keys. -/
theorem Orderly.frame (h : s.Orderly p) (hl : s.Later s')
    (hqueue : Queue s'.core.locks (visits s'.calls)) (hsame : ∀ k, s.SameAt p s' k)
    (hcalls : ∀ n c, c.inside = true → (s'.calls n = some c ↔ s.calls n = some c)) :
    s'.Orderly p where
  queue := hqueue
  phase n c hn := by
    cases hi : c.inside with
    | false => exact phase_of_outside hi
    | true => exact (h.phase n c ((hcalls n c hi).1 hn)).of_same hl fun v _ _ => hsame v.key
  settled k := (h.settled k).of_same hl (hsame k) fun n c _ hn _ hi _ => (hcalls n c hi).2 hn

/-! ### Holders -/

theorem visits_of_call (hc : s.calls n = some c) (hv : c.visit? = some v) :
    visits s.calls n = some (v, c.inside) :=
  visits_eq_some_iff.2 ⟨c, hc, hv, rfl⟩

theorem Orderly.holds_of_inside (h : s.Orderly p) (hc : s.calls n = some c)
    (hv : c.visit? = some v) (hi : c.inside = true) : s.core.locks.holds v.ticket = true :=
  h.queue.holds (by rw [visits_of_call hc hv, hi])

/-- **A call goes on, or ends.**  What it changes is its own: its claim, and since it has the lock,
its key. -/
theorem Orderly.advance (h : s.Orderly p) (hc : s.calls n = some c) (hv : c.visit? = some v)
    (hh : s.core.locks.holds v.ticket = true) {d : Option Call}
    (hcalls : s'.calls = Function.update s.calls n d)
    (hd : d = none ∧ s'.core.locks = s.core.locks.drop v.ticket ∨
      s'.core.locks = s.core.locks ∧
        ∃ e, d = some e ∧ e.visit? = some v ∧ e.inside = true ∧ s'.Phase p e)
    (hl : s.Later s') (hother : ∀ k, k ≠ v.key → s.SameAt p s' k)
    (hkey : s'.Settled p v.key) : s'.Orderly p := by
  have hvisit := visits_of_call hc hv
  have hrest : ∀ m, m ≠ n → s'.calls m = s.calls m := fun m hmn => by
    rw [hcalls, Function.update_of_ne hmn]
  -- the key is taken, so a call that has passed another lock is on another key
  have hfree : ∀ m e w, m ≠ n → s.calls m = some e → e.visit? = some w → e.inside = true →
      w.key ≠ v.key := by
    intro m e w hmn hm hw hi hk
    exact hmn (h.queue.unique (visits_of_call hm hw) hvisit (h.holds_of_inside hm hw hi) hh hk)
  refine ⟨?_, fun m e hm => ?_, fun k => ?_⟩
  · rw [hcalls, visits_update]
    rcases hd with ⟨rfl, hlocks⟩ | ⟨hlocks, e, rfl, he, hi, _⟩
    · rw [hlocks]
      exact h.queue.depart hvisit
    · rw [hlocks, Option.bind_some, he, Option.map_some, hi]
      exact h.queue.enter hvisit hh
  · by_cases hmn : m = n
    · rw [hmn, hcalls, Function.update_self] at hm
      rcases hd with ⟨rfl, _⟩ | ⟨_, e', rfl, _, _, hphase⟩
      · exact nomatch hm
      · exact Option.some.inj hm ▸ hphase
    · rw [hrest m hmn] at hm
      exact (h.phase m e hm).of_same hl fun w hw hi => hother _ (hfree m e w hmn hm hw hi)
  · by_cases hk : k = v.key
    · exact hk ▸ hkey
    · refine (h.settled k).of_same hl (hother k hk) fun m e w hm hw _ hwk => ?_
      have hmn : m ≠ n := by
        rintro rfl
        obtain rfl := Option.some.inj (hc.symm.trans hm)
        obtain rfl := Option.some.inj (hv.symm.trans hw)
        exact hk hwk.symm
      rw [hrest m hmn, hm]

/-! ### At the lock -/

theorem Orderly.look (h : s.Orderly p) (t : Nat) : (s.look t).Orderly p :=
  h.frame ⟨rfl, Nat.le_refl _, fun _ h => h⟩ (h.queue.look t) (fun _ => ⟨rfl, rfl, rfl⟩)
    fun _ _ _ => .rfl

/-- **A call lines up.**  Its ticket is new. -/
theorem Orderly.line (h : s.Orderly p) (hfree : s.calls n = none) {call : Visit → Call}
    (hcall : call = .enter ∨ call = .enterOut) (k : String) (a : Consumer) :
    (s.line n call k a).Orderly p := by
  have hout : ∀ v, (call v).visit? = some v ∧ (call v).inside = false := by
    rcases hcall with rfl | rfl <;> exact fun _ => ⟨rfl, rfl⟩
  refine h.frame ⟨rfl, Nat.le_refl _, fun _ h => h⟩ ?_ (fun _ => ⟨rfl, rfl, rfl⟩)
    fun m c hi => ?_
  · have hv : visits (s.line n call k a).calls = Function.update (visits s.calls) n
        (some ((s.core.lineUp k "" a).2, false)) := by
      refine (visits_update _ _ _).trans ?_
      rw [Services.goOn, Option.bind_some, (hout _).1, (hout _).2, Option.map_some]
    rw [hv]
    exact h.queue.line (v := (s.core.lineUp k "" a).2) n rfl
  · show Function.update s.calls n (some (call _)) m = some c ↔ _
    rw [Function.update_apply]
    split
    · next hmn =>
      rw [hmn, hfree]
      refine iff_of_false (fun he => ?_) nofun
      obtain rfl := Option.some.inj he
      exact nomatch (hout _).2.symm.trans hi
    · exact .rfl

theorem Orderly.beside (h : s.Orderly p) (hb : s.Beside p s') : s'.Orderly p := by
  obtain ⟨m, hm⟩ := hb.core
  have hcalls : ∀ n c, c.inside = true → (s'.calls n = some c ↔ s.calls n = some c) := by
    intro n c hi
    obtain ⟨v, hv⟩ := visit?_of_inside hi
    exact hb.calls n c v hv
  have hvisits : visits s'.calls = visits s.calls := by
    refine funext fun n => Option.ext fun ⟨v, b⟩ => ?_
    rw [visits_eq_some_iff, visits_eq_some_iff]
    exact exists_congr fun c => and_congr_left fun hc => hb.calls n c v hc.1
  refine h.frame ⟨?_, ?_, ?_⟩ ?_ (fun k => ⟨?_, ?_, hb.listeners k⟩) hcalls
  · rw [hm]; rfl
  · rw [hm]; exact Nat.le_refl _
  · rw [hb.lost]; exact fun _ h => h
  · rw [hm, hvisits]; exact h.queue
  · show s'.core.roster.consumers k = _
    rw [hm]; rfl
  · rw [hm]; rfl

end Discovery.Registry.Services.Interplay
