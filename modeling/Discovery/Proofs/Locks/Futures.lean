import Discovery.Proofs.Locks.Line
import Mathlib.Data.List.Basic

/-!
# Futures for locks

Whoever wants a lock makes a future for it.  A future does nothing before it is polled; then it
has a claim, also when it has become a guard; and it may be dropped at any time.  `Futures` are
locks together with the futures that were made for them, and a record of the order in which
futures were first polled and in which they became guards.

* `step`, `run`: one deed, and a list of deeds.
* `Fair`: what is expected of the locks.
* `Matched.owner?_iff`: the slot of a key is owned by the future that was polled first of those
  that are still there.
* `Matched.make`, `Matched.ask`, `Matched.look`, `Matched.discard`: each deed keeps claims, futures
  and record matching.
-/

namespace Discovery.Locks

/-- A future for the lock of a key: not polled yet, polled (it waits then, or is a guard) or
dropped. -/
inductive Future where
  | fresh (key : String)
  | asked (key : String) (ticket : Nat)
  | dropped (key : String)
deriving DecidableEq, Repr

def Future.key : Future → String
  | .fresh k | .asked k _ | .dropped k => k

/-- What can be done: a future is made, which gets the next number, or polled or dropped.  To drop
a guard is to drop the future that it was. -/
inductive Deed where
  | make (key : String)
  | poll (n : Nat)
  | drop (n : Nat)
deriving DecidableEq, Repr

def Deed.future? : Deed → Option Nat
  | .make _ => none
  | .poll n | .drop n => some n

/-- Locks, the futures made for them by number, the futures in the order in which they were first
polled, and the futures that became guards, in the order in which they did. -/
structure Futures where
  locks : Locks
  made : List Future
  polled : List Nat
  granted : List Nat
deriving DecidableEq, Repr

namespace Futures

def empty : Futures := ⟨∅, [], [], []⟩

instance : EmptyCollection Futures := ⟨empty⟩

def key? (s : Futures) (n : Nat) : Option String :=
  (s.made[n]?).map (·.key)

def holds (s : Futures) (n : Nat) : Bool :=
  match s.made[n]? with
  | some (.asked _ t) => s.locks.holds t
  | _ => false

/-- A future has been polled and not been dropped: it waits for the lock of a key or is its
guard. -/
def Asks (s : Futures) (n : Nat) (k : String) : Prop :=
  ∃ t, s.made[n]? = some (.asked k t)

/-- The place of a future among those that have been polled. -/
def rank (s : Futures) (n : Nat) : Nat :=
  s.polled.idxOf n

/-- Puts a future on record that has become a guard. -/
def grant (s : Futures) (n : Nat) : Futures :=
  if s.holds n then { s with granted := s.granted ++ [n] } else s

/-- A fresh future is polled: it asks for the lock. -/
def ask (s : Futures) (n : Nat) (k : String) : Futures where
  locks := (s.locks.request k).1
  made := s.made.set n (.asked k (s.locks.request k).2)
  polled := s.polled ++ [n]
  granted := s.granted

def look (s : Futures) (t : Nat) : Futures :=
  { s with locks := s.locks.poll t }

/-- A future is dropped, and the locks are `l` then. -/
def discard (s : Futures) (n : Nat) (k : String) (l : Locks) : Futures :=
  { s with locks := l, made := s.made.set n (.dropped k) }

/-- **One deed.**  There is nothing to poll in a guard or in what has been dropped. -/
def step (s : Futures) : Deed → Futures
  | .make k => { s with made := s.made ++ [.fresh k] }
  | .poll n =>
    match s.made[n]? with
    | some (.fresh k) => (s.ask n k).grant n
    | some (.asked _ t) => if s.locks.holds t then s else (s.look t).grant n
    | _ => s
  | .drop n =>
    match s.made[n]? with
    | some (.fresh k) => s.discard n k s.locks
    | some (.asked k t) => s.discard n k (s.locks.drop t)
    | _ => s

def run (s : Futures) (ds : List Deed) : Futures :=
  ds.foldl step s

/-- **Fair locks.** -/
structure Fair (s : Futures) : Prop where
  /-- Of each key there is at most one guard. -/
  exclusive : ∀ {n m : Nat} {k : String}, s.Asks n k → s.Asks m k → s.holds n = true →
    s.holds m = true → n = m
  /-- Whoever waits for a key or is its guard is on the slot that the table shows for the key. -/
  current : ∀ {n : Nat} {k : String} {t : Nat}, s.made[n]? = some (.asked k t) →
    ∃ c, s.locks.claim? t = some c ∧ c.key = k ∧ s.locks.slots.get? k = some c.slot
  /-- Whoever looks need not start again: at most it learns that its turn has come. -/
  settled : ∀ t, s.locks.poll t = s.locks ∨ s.locks.poll t = s.locks.settle t
  /-- The guards of a key were granted in the order in which the futures were first polled. -/
  inOrder : s.granted.Pairwise fun n m => s.key? n = s.key? m → s.rank n < s.rank m
  /-- A future that is polled has the lock then, unless one for the same key is still there that
  was polled before. -/
  turn : ∀ {n : Nat} {k : String}, (s.step (.poll n)).Asks n k →
    ((s.step (.poll n)).holds n = true ↔
    ∀ m, (s.step (.poll n)).Asks m k → (s.step (.poll n)).rank n ≤ (s.step (.poll n)).rank m)
  /-- What is done with the futures for other keys changes nothing for a future. -/
  apart : ∀ (d : Deed) {n : Nat} {k : String}, s.key? n = some k →
    (∀ m, d.future? = some m → s.key? m ≠ some k) →
    (s.step d).made[n]? = s.made[n]? ∧ (s.step d).holds n = s.holds n

/-! ### Locks, futures and record match -/

/-- Each claim belongs to a future, and its ticket is the place of the future in the record. -/
structure Matched (s : Futures) : Prop where
  sound : s.locks.Sound
  sorted : s.locks.Sorted
  next : s.locks.nextTicket = s.polled.length
  claim : ∀ {n : Nat} {k : String} {t : Nat}, s.made[n]? = some (.asked k t) →
    ∃ c ∈ s.locks.claims, c.ticket = t ∧ c.key = k
  future : ∀ c ∈ s.locks.claims, ∃ n : Nat, s.made[n]? = some (.asked c.key c.ticket)
  place : ∀ {n : Nat} {k : String} {t : Nat}, s.made[n]? = some (.asked k t) → s.polled[t]? = some n
  begun : ∀ n ∈ s.polled, ∃ f, s.made[n]? = some f ∧ ∀ k, f ≠ .fresh k
  nodup : s.polled.Nodup

variable {s s' : Futures} {n m t : Nat} {k : String} {f : Future}

theorem holds_eq (h : s.made[n]? = some (.asked k t)) : s.holds n = s.locks.holds t := by
  unfold holds
  rw [h]

theorem getElem?_set_of (h : s.made[n]? = some f) (g : Future) (m : Nat) :
    (s.made.set n g)[m]? = if m = n then some g else s.made[m]? := by
  obtain ⟨hlt, _⟩ := List.getElem?_eq_some_iff.1 h
  rw [List.getElem?_set]
  by_cases hm : m = n
  · rw [if_pos hm.symm, if_pos hlt, if_pos hm]
  · rw [if_neg (Ne.symm hm), if_neg hm]

namespace Matched

theorem rank_eq (h : s.Matched) (hn : s.made[n]? = some (.asked k t)) : s.rank n = t := by
  obtain ⟨hlt, ht⟩ := List.getElem?_eq_some_iff.1 (h.place hn)
  unfold rank
  rw [← ht]
  exact h.nodup.idxOf_getElem t hlt

theorem eq_of_ticket (h : s.Matched) {k' : String} (hn : s.made[n]? = some (.asked k t))
    (hm : s.made[m]? = some (.asked k' t)) : n = m :=
  Option.some.inj ((h.place hn).symm.trans (h.place hm))

theorem ticket_lt (h : s.Matched) (hn : s.made[n]? = some (.asked k t)) :
    t < s.locks.nextTicket := by
  obtain ⟨c, hc, ht, _⟩ := h.claim hn
  exact ht ▸ h.sound.ticket_lt c hc

theorem mem_polled (h : s.Matched) (hn : s.Asks n k) : n ∈ s.polled := by
  obtain ⟨t, ht⟩ := hn
  exact List.mem_of_getElem? (h.place ht)

theorem not_mem_polled (h : s.Matched) (hn : s.made[n]? = some (.fresh k)) : n ∉ s.polled := by
  intro hmem
  obtain ⟨f, hf, hne⟩ := h.begun n hmem
  exact hne k (Option.some.inj (hf.symm.trans hn))

/-- **The slot of a key is owned by the future that was polled first** of those still there. -/
theorem owner?_iff (h : s.Matched) (hn : s.made[n]? = some (.asked k t)) {c : Claim}
    (hc : c ∈ s.locks.claims) (ht : c.ticket = t) :
    s.locks.owner? c.slot = some c ↔ ∀ m, s.Asks m k → s.rank n ≤ s.rank m := by
  obtain ⟨c', hc', ht', hk⟩ := h.claim hn
  obtain rfl := h.sound.eq_of_ticket hc hc' (ht.trans ht'.symm)
  rw [Locks.owner?_eq_some_iff h.sound h.sorted hc, h.rank_eq hn]
  constructor
  · rintro hmin m ⟨u, hm⟩
    obtain ⟨d, hd, hdt, hdk⟩ := h.claim hm
    rw [h.rank_eq hm, ← hdt, ← ht]
    exact hmin d hd (hdk.trans hk.symm)
  · intro hmin d hd hdk
    obtain ⟨m, hm⟩ := h.future d hd
    have hle := hmin m ⟨d.ticket, by rw [hm, hdk, hk]⟩
    rw [h.rank_eq hm] at hle
    exact ht ▸ hle

theorem holds_iff (h : s.Matched) (hn : s.made[n]? = some (.asked k t)) {c : Claim}
    (hc : c ∈ s.locks.claims) (ht : c.ticket = t) : s.holds n = true ↔ c.held = true := by
  rw [Futures.holds_eq hn, ← ht, holds_eq_held h.sound hc]

theorem rank_le_of_holds (h : s.Matched) (hn : s.Asks n k) (hh : s.holds n = true)
    (hm : s.Asks m k) : s.rank n ≤ s.rank m := by
  obtain ⟨t, hn⟩ := hn
  obtain ⟨c, hc, ht, _⟩ := h.claim hn
  have hheld := (h.holds_iff hn hc ht).1 hh
  exact (h.owner?_iff hn hc ht).1 (h.sound.first c hc hheld) m hm

theorem eq_of_rank (h : s.Matched) {k' : String} (hn : s.Asks n k) (hm : s.Asks m k')
    (hr : s.rank n = s.rank m) : n = m := by
  obtain ⟨t, hn⟩ := hn
  obtain ⟨u, hm⟩ := hm
  rw [h.rank_eq hn, h.rank_eq hm] at hr
  exact h.eq_of_ticket hn (hr ▸ hm)

theorem rank_lt_of_holds (h : s.Matched) (hn : s.Asks n k) (hh : s.holds n = true)
    (hm : s.Asks m k) (hne : m ≠ n) : s.rank n < s.rank m :=
  Nat.lt_of_le_of_ne (h.rank_le_of_holds hn hh hm) fun hr => hne (h.eq_of_rank hn hm hr).symm

/-! ### Deeds keep them matching -/

theorem make (h : s.Matched) (k : String) : (s.step (.make k)).Matched := by
  have hasked : ∀ {n : Nat} {k' : String} {t : Nat},
      (s.made ++ [Future.fresh k])[n]? = some (.asked k' t) → s.made[n]? = some (.asked k' t) := by
    intro n k' t hn
    rw [List.getElem?_append] at hn
    split at hn
    · exact hn
    · have hmem := List.mem_of_getElem? hn
      exact nomatch List.mem_singleton.1 hmem
  have hold : ∀ {n : Nat} {f : Future}, s.made[n]? = some f →
      (s.made ++ [Future.fresh k])[n]? = some f := by
    intro n f hn
    rw [List.getElem?_append_left (List.getElem?_eq_some_iff.1 hn).1, hn]
  refine ⟨h.sound, h.sorted, h.next, fun hn => h.claim (hasked hn), fun c hc => ?_,
    fun hn => h.place (hasked hn), fun n hn => ?_, h.nodup⟩
  · obtain ⟨n, hn⟩ := h.future c hc
    exact ⟨n, hold hn⟩
  · obtain ⟨f, hf, hne⟩ := h.begun n hn
    exact ⟨f, hold hf, hne⟩

theorem ask (h : s.Matched) (hn : s.made[n]? = some (.fresh k)) : (s.ask n k).Matched := by
  have hmade := getElem?_set_of hn (.asked k (s.locks.request k).2)
  have hmem : ∀ {c : Claim}, c ∈ (s.locks.request k).1.claims ↔ c ∈ s.locks.claims ∨
      c = s.locks.newClaim k := mem_claims_request h.sound
  refine ⟨h.sound.request k, h.sorted.request h.sound k, ?_, fun {m k' t} hm => ?_,
    fun c hc => ?_, fun {m k' t} hm => ?_, fun m hm => ?_, ?_⟩
  · show (s.locks.request k).1.nextTicket = (s.polled ++ [n]).length
    rw [nextTicket_request h.sound, h.next, List.length_append]
    rfl
  · change (s.made.set n _)[m]? = _ at hm
    rw [hmade] at hm
    split at hm
    · cases hm
      exact ⟨s.locks.newClaim k, hmem.2 (.inr rfl), rfl, rfl⟩
    · obtain ⟨c, hc, hck⟩ := h.claim hm
      exact ⟨c, hmem.2 (.inl hc), hck⟩
  · rcases hmem.1 hc with hc | rfl
    · obtain ⟨m, hm⟩ := h.future c hc
      refine ⟨m, (hmade m).trans ?_⟩
      rw [if_neg, hm]
      rintro rfl
      exact nomatch hn.symm.trans hm
    · exact ⟨n, (hmade n).trans (if_pos rfl)⟩
  · change (s.made.set n _)[m]? = _ at hm
    show (s.polled ++ [n])[t]? = some m
    rw [hmade] at hm
    split at hm
    · next hmn =>
      cases hm
      rw [hmn, show (s.locks.request k).2 = s.polled.length from h.next]
      exact List.getElem?_concat_length
    · rw [List.getElem?_append_left (List.getElem?_eq_some_iff.1 (h.place hm)).1, h.place hm]
  · show ∃ f, (s.made.set n _)[m]? = some f ∧ _
    rw [hmade]
    by_cases hmn : m = n
    · exact ⟨_, if_pos hmn, fun _ hf => nomatch hf⟩
    · rw [if_neg hmn]
      rcases List.mem_append.1 hm with hm | hm
      · exact h.begun m hm
      · exact absurd (List.mem_singleton.1 hm) hmn
  · show (s.polled ++ [n]).Nodup
    rw [List.nodup_append]
    refine ⟨h.nodup, List.nodup_singleton n, fun a ha b hb hab => ?_⟩
    obtain rfl := List.mem_singleton.1 hb
    exact h.not_mem_polled hn (hab ▸ ha)

theorem look (h : s.Matched) (t : Nat) : (s.look t).Matched := by
  refine ⟨h.sound.poll t, h.sorted.poll h.sound t,
    (nextTicket_poll h.sound t).trans h.next, fun hn => ?_, fun c hc => ?_, h.place, h.begun,
    h.nodup⟩
  · obtain ⟨c, hc, ht, hk⟩ := h.claim hn
    obtain ⟨d, hd, hdt, hdk, _⟩ := exists_mem_claims_poll h.sound t hc
    exact ⟨d, hd, hdt.trans ht, hdk.trans hk⟩
  · -- a claim keeps its ticket, so it is the one that was there
    have htick : c.ticket ∈ s.locks.claims.map (·.ticket) := by
      rw [← map_ticket_poll h.sound t]
      exact List.mem_map_of_mem hc
    obtain ⟨d, hd, hdt⟩ := List.mem_map.1 htick
    obtain ⟨e, he, het, hek, _⟩ := exists_mem_claims_poll h.sound t hd
    obtain rfl := (h.sound.poll t).eq_of_ticket he hc (het.trans hdt)
    obtain ⟨n, hn⟩ := h.future d hd
    exact ⟨n, by rw [hek, het]; exact hn⟩

theorem discard (h : s.Matched) (hn : s.made[n]? = some f) {l : Locks} (hsound : l.Sound)
    (hsorted : l.Sorted) (hnext : l.nextTicket = s.locks.nextTicket)
    (hclaims : ∀ c, c ∈ l.claims ↔ c ∈ s.locks.claims ∧ f ≠ .asked c.key c.ticket)
    (k : String) : (s.discard n k l).Matched := by
  have hmade := getElem?_set_of hn (.dropped k)
  have hasked : ∀ {m : Nat} {k' : String} {t : Nat},
      (s.made.set n (.dropped k))[m]? = some (.asked k' t) →
        m ≠ n ∧ s.made[m]? = some (.asked k' t) := by
    intro m k' t hm
    rw [hmade] at hm
    split at hm
    · exact nomatch hm
    · next hmn => exact ⟨hmn, hm⟩
  refine ⟨hsound, hsorted, hnext.trans h.next, fun hm => ?_, fun c hc => ?_, fun hm => ?_,
    fun m hm => ?_, h.nodup⟩
  · obtain ⟨hmn, hm⟩ := hasked hm
    obtain ⟨c, hc, ht, hk⟩ := h.claim hm
    refine ⟨c, (hclaims c).2 ⟨hc, ?_⟩, ht, hk⟩
    rintro rfl
    rw [ht, hk] at hn
    exact hmn (h.eq_of_ticket hm hn)
  · obtain ⟨hc, hne⟩ := (hclaims c).1 hc
    obtain ⟨m, hm⟩ := h.future c hc
    refine ⟨m, (hmade m).trans ?_⟩
    rw [if_neg, hm]
    rintro rfl
    exact hne (Option.some.inj (hn.symm.trans hm))
  · exact h.place (hasked hm).2
  · show ∃ g, (s.made.set n (.dropped k))[m]? = some g ∧ _
    rw [hmade]
    by_cases hmn : m = n
    · exact ⟨_, if_pos hmn, fun _ hf => nomatch hf⟩
    · rw [if_neg hmn]
      exact h.begun m hm

theorem discard_fresh (h : s.Matched) (hn : s.made[n]? = some (.fresh k)) :
    (s.discard n k s.locks).Matched :=
  h.discard hn h.sound h.sorted rfl (fun _ => (and_iff_left nofun).symm) k

theorem discard_asked (h : s.Matched) (hn : s.made[n]? = some (.asked k t)) :
    (s.discard n k (s.locks.drop t)).Matched := by
  refine h.discard hn (h.sound.drop t) (h.sorted.drop t) (nextTicket_drop _ _) (fun c => ?_) k
  rw [mem_claims_drop h.sound]
  refine and_congr_right fun hc => not_congr ⟨fun ht => ?_, fun hf => ?_⟩
  · obtain ⟨d, hd, hdt, hdk⟩ := h.claim hn
    obtain rfl := h.sound.eq_of_ticket hc hd (ht.trans hdt.symm)
    rw [hdt, hdk]
  · injection hf with _ ht
    exact ht.symm

end Matched

end Futures

end Discovery.Locks
