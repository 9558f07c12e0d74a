import Discovery.Locks
import Mathlib.Data.List.Nodup

/-!
# Sound locks

A table of locks is sound if each claim is on the slot that the table shows for its key, no two
keys share a slot, no two claims a ticket, and whoever holds a slot came first to it.

* `Sound.request`, `Sound.poll`, `Sound.drop`: asking, looking and leaving keep the table sound.
* `Sound.exclusive`: **of each key there is at most one holder.**
* `mem_claims_request`, `exists_mem_claims_poll`, `mem_claims_drop`: the claims afterwards.
  Nobody's claim is touched by what others do.
-/

namespace Discovery.Locks

/-- **A sound table of locks.** -/
structure Sound (l : Locks) : Prop where
  /-- Each claim is on the slot that the table shows for its key. -/
  current : ∀ c ∈ l.claims, l.slots.get? c.key = some c.slot
  apart : ∀ k k' n, l.slots.get? k = some n → l.slots.get? k' = some n → k = k'
  slot_lt : ∀ k n, l.slots.get? k = some n → n < l.nextSlot
  ticket_lt : ∀ c ∈ l.claims, c.ticket < l.nextTicket
  nodup : (l.claims.map (·.ticket)).Nodup
  /-- Whoever holds a slot came first to it. -/
  first : ∀ c ∈ l.claims, c.held = true → l.owner? c.slot = some c

theorem sound_empty : Sound ∅ where
  current _ h := nomatch h
  apart _ _ _ h := nomatch h
  slot_lt _ _ h := nomatch h
  ticket_lt _ h := nomatch h
  nodup := List.nodup_nil
  first _ h := nomatch h

variable {l : Locks} {c c' : Claim} {k : String} {t : Nat}

namespace Sound

/-- **Of each key there is at most one holder.** -/
theorem exclusive (h : l.Sound) (hc : c ∈ l.claims) (hc' : c' ∈ l.claims) (hh : c.held = true)
    (hh' : c'.held = true) (hk : c.key = c'.key) : c = c' := by
  have hslot : c.slot = c'.slot := by
    have := h.current c hc
    rw [hk, h.current c' hc', Option.some.injEq] at this
    exact this.symm
  have hfirst := h.first c hc hh
  rw [hslot, h.first c' hc' hh', Option.some.injEq] at hfirst
  exact hfirst.symm

theorem eq_of_ticket (h : l.Sound) (hc : c ∈ l.claims) (hc' : c' ∈ l.claims)
    (ht : c.ticket = c'.ticket) : c = c' :=
  List.inj_on_of_nodup_map h.nodup hc hc' ht

theorem claim?_eq_some_iff (h : l.Sound) : l.claim? t = some c ↔ c ∈ l.claims ∧ c.ticket = t := by
  unfold claim?
  constructor
  · intro hf
    exact ⟨List.mem_of_find?_eq_some hf, by simpa using List.find?_some hf⟩
  · rintro ⟨hc, rfl⟩
    cases hf : l.claims.find? (·.ticket == c.ticket) with
    | none => simpa using List.find?_eq_none.1 hf c hc
    | some d =>
      have ht : d.ticket = c.ticket := by simpa using List.find?_some hf
      rw [h.eq_of_ticket (List.mem_of_find?_eq_some hf) hc ht]

theorem holds_iff (h : l.Sound) :
    l.holds t = true ↔ ∃ c ∈ l.claims, c.ticket = t ∧ c.held = true := by
  unfold holds
  rw [Option.any_eq_true]
  constructor
  · rintro ⟨c, hc, hh⟩
    obtain ⟨hc, ht⟩ := h.claim?_eq_some_iff.1 hc
    exact ⟨c, hc, ht, hh⟩
  · rintro ⟨c, hc, ht, hh⟩
    exact ⟨c, h.claim?_eq_some_iff.2 ⟨hc, ht⟩, hh⟩

end Sound

/-! ### Asking -/

theorem slotFor_spec (h : l.Sound) (k : String) :
    (l.slotFor k).1.slots.get? k = some (l.slotFor k).2 ∧
      (l.slotFor k).1.claims = l.claims ∧ (l.slotFor k).1.nextTicket = l.nextTicket ∧
      (∀ k' n, l.slots.get? k' = some n → (l.slotFor k).1.slots.get? k' = some n) ∧
      (∀ k' n, (l.slotFor k).1.slots.get? k' = some n → n < (l.slotFor k).1.nextSlot) ∧
      ∀ k' k'' n, (l.slotFor k).1.slots.get? k' = some n →
        (l.slotFor k).1.slots.get? k'' = some n → k' = k'' := by
  unfold slotFor
  cases hk : l.slots.get? k with
  | some n => exact ⟨hk, rfl, rfl, fun _ _ h' => h', h.slot_lt, h.apart⟩
  | none =>
    refine ⟨Table.get?_insert_self _ _ _, rfl, rfl, fun k' n hn => ?_, fun k' n hn => ?_, ?_⟩
    · rw [Table.get?_insert_of_ne, hn]
      rintro rfl
      rw [hk] at hn
      exact nomatch hn
    · rw [Table.get?_insert] at hn
      show n < l.nextSlot + 1
      split at hn
      · cases hn
        omega
      · have := h.slot_lt k' n hn
        omega
    · intro k' k'' n hn hn'
      rw [Table.get?_insert] at hn hn'
      -- a new slot has a number that no other slot has
      split at hn <;> split at hn'
      · next h1 h2 => rw [h1, h2]
      · cases hn
        have := h.slot_lt k'' _ hn'
        omega
      · cases hn'
        have := h.slot_lt k' _ hn
        omega
      · exact h.apart k' k'' n hn hn'

def newClaim (l : Locks) (k : String) : Claim :=
  ⟨l.nextTicket, k, (l.slotFor k).2, !l.taken (l.slotFor k).2⟩

theorem slotFor_nextTicket (l : Locks) (k : String) (n : Nat) :
    ({ l with nextTicket := n }.slotFor k) =
      ({ (l.slotFor k).1 with nextTicket := n }, (l.slotFor k).2) := by
  unfold slotFor
  cases l.slots.get? k <;> rfl

theorem request_eq (l : Locks) (k : String) (h : l.Sound) : l.request k =
    ({ (l.slotFor k).1 with
      claims := l.claims ++ [l.newClaim k]
      nextTicket := l.nextTicket + 1 }, l.nextTicket) := by
  have hc := (slotFor_spec h k).2.1
  unfold request join
  rw [slotFor_nextTicket]
  simp only [taken, hc, newClaim]

theorem mem_claims_request (h : l.Sound) :
    c ∈ (l.request k).1.claims ↔ c ∈ l.claims ∨ c = l.newClaim k := by
  rw [request_eq l k h, List.mem_append, List.mem_singleton]

theorem Sound.request (h : l.Sound) (k : String) : (l.request k).1.Sound := by
  obtain ⟨hk, hcl, _, hmono, hlt, hap⟩ := slotFor_spec h k
  rw [request_eq l k h]
  refine ⟨fun c hc => ?_, hap, hlt, fun c hc => ?_, ?_, fun c hc hh => ?_⟩
  · rcases List.mem_append.1 hc with hc | hc
    · exact hmono _ _ (h.current c hc)
    · obtain rfl := List.mem_singleton.1 hc
      exact hk
  · rcases List.mem_append.1 hc with hc | hc
    · exact Nat.lt_succ_of_lt (h.ticket_lt c hc)
    · obtain rfl := List.mem_singleton.1 hc
      exact Nat.lt_succ_self _
  · rw [List.map_append, List.nodup_append]
    refine ⟨h.nodup, by simp, fun a ha b hb hab => ?_⟩
    obtain ⟨c, hc, rfl⟩ := List.mem_map.1 ha
    obtain rfl : b = l.nextTicket := by simpa [newClaim] using hb
    exact Nat.lt_irrefl _ (hab ▸ h.ticket_lt c hc)
  · show (l.claims ++ [l.newClaim k]).find? (·.slot == c.slot) = some c
    rw [List.find?_append]
    rcases List.mem_append.1 hc with hc | hc
    · rw [show l.claims.find? (·.slot == c.slot) = some c from h.first c hc hh, Option.some_or]
    · obtain rfl := List.mem_singleton.1 hc
      have hnone : l.claims.find? (·.slot == (l.newClaim k).slot) = none := by
        rw [List.find?_eq_none]
        intro x hx hs
        have htaken : l.taken (l.slotFor k).2 = true := List.any_eq_true.2 ⟨x, hx, hs⟩
        simp [newClaim, htaken] at hh
      rw [hnone, Option.none_or]
      simp

/-! ### Looking -/

theorem settle_eq_map (l : Locks) (t : Nat) : (l.settle t).claims =
    l.claims.map fun c => if c.ticket = t then { c with held := true } else c := rfl

/-- **Looking changes at most the own claim**, which may be held then. -/
theorem poll_eq (h : l.Sound) (t : Nat) : l.poll t = l ∨
    (l.poll t = l.settle t ∧ ∃ c ∈ l.claims, c.ticket = t ∧ l.owner? c.slot = some c) := by
  unfold poll
  cases hc : l.claim? t with
  | none => exact .inl rfl
  | some c =>
    obtain ⟨hc, ht⟩ := h.claim?_eq_some_iff.1 hc
    dsimp only
    split
    · exact .inl rfl
    · split
      · next ho =>
        -- the table shows the slot of every claim, so the claim never has to start again
        rw [if_pos (h.current c hc)]
        refine .inr ⟨rfl, c, hc, ht, ?_⟩
        obtain ⟨d, hd, hdt⟩ := (Option.any_eq_true _ _).1 ho
        have hdc : d ∈ l.claims := List.mem_of_find?_eq_some hd
        rw [hd, h.eq_of_ticket hdc hc (by rw [ht]; simpa using hdt)]
      · exact .inl rfl

theorem mem_claims_poll_of_ne (h : l.Sound) (hne : c.ticket ≠ t) :
    c ∈ (l.poll t).claims ↔ c ∈ l.claims := by
  rcases poll_eq h t with he | ⟨he, _⟩
  · rw [he]
  · rw [he, settle_eq_map, List.mem_map]
    constructor
    · rintro ⟨d, hd, rfl⟩
      split at hne
      · next ht => exact absurd ht hne
      · next ht => rw [if_neg ht]; exact hd
    · intro hc
      exact ⟨c, hc, if_neg hne⟩

theorem exists_mem_claims_poll (h : l.Sound) (t : Nat) (hc : c ∈ l.claims) :
    ∃ d ∈ (l.poll t).claims, d.ticket = c.ticket ∧ d.key = c.key ∧
      (c.held = true → d.held = true) := by
  rcases poll_eq h t with he | ⟨he, _⟩
  · exact ⟨c, by rw [he]; exact hc, rfl, rfl, id⟩
  · rw [he, settle_eq_map]
    refine ⟨_, List.mem_map_of_mem hc, ?_⟩
    split <;> simp

theorem Sound.poll (h : l.Sound) (t : Nat) : (l.poll t).Sound := by
  rcases poll_eq h t with he | ⟨he, o, ho, hot, hown⟩
  · rw [he]
    exact h
  · rw [he]
    have hmem : ∀ c ∈ (l.settle t).claims, ∃ d ∈ l.claims, d.ticket = c.ticket ∧ d.key = c.key ∧
        d.slot = c.slot ∧ c = (if d.ticket = t then { d with held := true } else d) := by
      intro c hc
      obtain ⟨d, hd, rfl⟩ := List.mem_map.1 hc
      refine ⟨d, hd, ?_⟩
      split <;> simp
    refine ⟨fun c hc => ?_, h.apart, h.slot_lt, fun c hc => ?_, ?_, fun c hc hh => ?_⟩
    · obtain ⟨d, hd, _, hk, hs, _⟩ := hmem c hc
      rw [← hk, ← hs]
      exact h.current d hd
    · obtain ⟨d, hd, ht, _⟩ := hmem c hc
      rw [← ht]
      exact h.ticket_lt d hd
    · rw [settle_eq_map, List.map_map]
      refine (List.map_congr_left fun c _ => ?_) ▸ h.nodup
      simp only [Function.comp]
      split <;> rfl
    · obtain ⟨d, hd, ht, hk, hs, hcd⟩ := hmem c hc
      have hfirst : l.owner? d.slot = some d := by
        by_cases hdt : d.ticket = t
        · rw [h.eq_of_ticket hd ho (hdt.trans hot.symm)]
          exact hown
        · rw [if_neg hdt] at hcd
          subst hcd
          exact h.first c hd hh
      show ((l.claims.map _).find? (·.slot == c.slot)) = some c
      rw [List.find?_map]
      have hcomp : ((fun x : Claim => x.slot == c.slot) ∘
          fun x : Claim => if x.ticket = t then { x with held := true } else x) =
          fun x : Claim => x.slot == d.slot := by
        funext x
        simp only [Function.comp, hs]
        split <;> rfl
      rw [hcomp, show l.claims.find? (·.slot == d.slot) = some d from hfirst, hcd]
      rfl

/-! ### Leaving -/

theorem mem_claims_leave : c ∈ (l.leave t).claims ↔ c ∈ l.claims ∧ c.ticket ≠ t := by
  simp [leave]

theorem claims_drop (l : Locks) (t : Nat) :
    (l.drop t).claims = if (l.claim? t).isSome then (l.leave t).claims else l.claims := by
  unfold drop
  cases l.claim? t with
  | none => rfl
  | some c =>
    dsimp only
    split <;> rfl

/-- **Leaving takes the own claim away**, and nobody else's. -/
theorem mem_claims_drop (h : l.Sound) :
    c ∈ (l.drop t).claims ↔ c ∈ l.claims ∧ c.ticket ≠ t := by
  rw [claims_drop]
  cases hd : l.claim? t with
  | none =>
    simp only [Option.isSome_none, Bool.false_eq_true, if_false]
    refine ⟨fun hc => ⟨hc, fun ht => ?_⟩, fun hc => hc.1⟩
    rw [h.claim?_eq_some_iff.2 ⟨hc, ht⟩] at hd
    exact nomatch hd
  | some d => exact mem_claims_leave

theorem Sound.leave (h : l.Sound) (t : Nat) : (l.leave t).Sound where
  current c hc := h.current c (mem_claims_leave.1 hc).1
  apart := h.apart
  slot_lt := h.slot_lt
  ticket_lt c hc := h.ticket_lt c (mem_claims_leave.1 hc).1
  nodup := h.nodup.sublist (List.filter_sublist.map _)
  first c hc hh := by
    obtain ⟨hc, hne⟩ := mem_claims_leave.1 hc
    obtain ⟨hs, as, bs, hl, has⟩ := List.find?_eq_some_iff_append.1 (h.first c hc hh)
    refine List.find?_eq_some_iff_append.2 ⟨hs, as.filter (·.ticket != t),
      bs.filter (·.ticket != t), ?_, fun x hx => has x (List.mem_filter.1 hx).1⟩
    show l.claims.filter _ = _
    rw [hl, List.filter_append, List.filter_cons_of_pos (by simpa using hne)]

theorem Sound.drop (h : l.Sound) (t : Nat) : (l.drop t).Sound := by
  unfold Locks.drop
  cases hd : l.claim? t with
  | none => exact h
  | some c =>
    have hl := h.leave t
    dsimp only
    split
    · next hcond =>
      simp only [Bool.and_eq_true, beq_iff_eq, Bool.not_eq_true'] at hcond
      obtain ⟨⟨_, hslot⟩, hfree⟩ := hcond
      -- no claim is left on the slot that goes, so none is left on its key
      have hkey : ∀ d ∈ (l.leave t).claims, d.key ≠ c.key := by
        intro d hd' hk
        have hs := hl.current d hd'
        rw [hk, hslot, Option.some.injEq] at hs
        have htaken : (l.leave t).taken c.slot = true :=
          List.any_eq_true.2 ⟨d, hd', by simp [hs]⟩
        rw [hfree] at htaken
        exact nomatch htaken
      have hmono : ∀ k n, ((l.leave t).slots.erase c.key).get? k = some n →
          (l.leave t).slots.get? k = some n := by
        intro k n hn
        rw [Table.get?_erase] at hn
        split at hn
        · exact nomatch hn
        · exact hn
      exact ⟨fun d hd' => (Table.get?_erase_of_ne _ (hkey d hd')).trans (hl.current d hd'),
        fun k k' n hn hn' => hl.apart k k' n (hmono k n hn) (hmono k' n hn'),
        fun k n hn => hl.slot_lt k n (hmono k n hn), hl.ticket_lt, hl.nodup, hl.first⟩
    · exact hl

end Discovery.Locks
