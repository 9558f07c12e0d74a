import Discovery.Proofs.Locks.Sound

/-!
# The line for a lock

Tickets are given in ascending order, and claims stand in the order of their tickets (`Sorted`).

* `owner?_eq_some_iff`: of the claims on a key the one with the lowest ticket owns the slot.
* `held_newClaim_iff`, `holds_poll_self_iff`: whoever asks or looks has the lock if and only if it
  owns the slot then.
* `holds_request`, `holds_poll`, `holds_drop`: what somebody else does changes nothing about that.
* `drop_eq_of_references`: a slot goes when a count of those who hold on to it says so.
-/

namespace Discovery.Locks

variable {l : Locks} {c c' : Claim} {t : Nat}

/-! ### Tickets -/

/-- The claims stand in the order of their tickets. -/
def Sorted (l : Locks) : Prop :=
  (l.claims.map (·.ticket)).Pairwise (· < ·)

theorem Sorted.request (hs : l.Sorted) (h : l.Sound) (k : String) : (l.request k).1.Sorted := by
  unfold Sorted
  rw [request_eq l k h, List.map_append, List.pairwise_append]
  refine ⟨hs, List.pairwise_singleton _ _, fun a ha b hb => ?_⟩
  obtain ⟨c, hc, rfl⟩ := List.mem_map.1 ha
  obtain rfl := List.mem_singleton.1 hb
  exact h.ticket_lt c hc

theorem map_ticket_poll (h : l.Sound) (t : Nat) :
    (l.poll t).claims.map (·.ticket) = l.claims.map (·.ticket) := by
  rcases poll_eq h t with he | ⟨he, _⟩
  · rw [he]
  · rw [he, settle_eq_map, List.map_map]
    refine List.map_congr_left fun c _ => ?_
    show (if c.ticket = t then { c with held := true } else c).ticket = c.ticket
    split <;> rfl

theorem Sorted.poll (hs : l.Sorted) (h : l.Sound) (t : Nat) : (l.poll t).Sorted := by
  unfold Sorted
  rw [map_ticket_poll h]
  exact hs

theorem Sorted.drop (hs : l.Sorted) (t : Nat) : (l.drop t).Sorted := by
  unfold Sorted
  rw [claims_drop]
  split
  · exact hs.sublist (List.filter_sublist.map _)
  · exact hs

theorem nextTicket_request (h : l.Sound) (k : String) :
    (l.request k).1.nextTicket = l.nextTicket + 1 := by
  rw [request_eq l k h]

theorem nextTicket_poll (h : l.Sound) (t : Nat) : (l.poll t).nextTicket = l.nextTicket := by
  rcases poll_eq h t with he | ⟨he, _⟩ <;> rw [he]
  rfl

theorem nextTicket_drop (l : Locks) (t : Nat) : (l.drop t).nextTicket = l.nextTicket := by
  unfold drop
  cases l.claim? t with
  | none => rfl
  | some c =>
    dsimp only
    split <;> rfl

/-! ### Owners -/

theorem Sound.slot_eq_iff (h : l.Sound) (hc : c ∈ l.claims) (hc' : c' ∈ l.claims) :
    c'.slot = c.slot ↔ c'.key = c.key := by
  have hcur := h.current c hc
  have hcur' := h.current c' hc'
  constructor
  · intro hs
    rw [hs] at hcur'
    exact h.apart _ _ _ hcur' hcur
  · intro hk
    rw [hk, hcur] at hcur'
    exact (Option.some.inj hcur').symm

/-- **Of the claims on a key the one with the lowest ticket owns the slot.** -/
theorem owner?_eq_some_iff (h : l.Sound) (hs : l.Sorted) (hc : c ∈ l.claims) :
    l.owner? c.slot = some c ↔ ∀ c' ∈ l.claims, c'.key = c.key → c.ticket ≤ c'.ticket := by
  have hslot : ∀ c' ∈ l.claims, (c'.slot == c.slot) = true ↔ c'.key = c.key :=
    fun c' hc' => beq_iff_eq.trans (h.slot_eq_iff hc hc')
  have hlt := List.pairwise_map.1 hs
  unfold owner?
  rw [List.find?_eq_some_iff_append]
  constructor
  · rintro ⟨_, as, bs, hl, has⟩ c' hc' hk
    have hin := hc'
    rw [hl] at hin hlt
    rcases List.mem_append.1 hin with ha | hb
    · have hne := has c' ha
      rw [(hslot c' hc').2 hk] at hne
      exact nomatch hne
    · rcases List.mem_cons.1 hb with rfl | hb
      · exact Nat.le_refl _
      · exact Nat.le_of_lt ((List.pairwise_cons.1 (List.pairwise_append.1 hlt).2.1).1 c' hb)
  · intro hmin
    obtain ⟨as, bs, hl⟩ := List.append_of_mem hc
    refine ⟨beq_self_eq_true _, as, bs, hl, fun a ha => ?_⟩
    have ha' : a ∈ l.claims := by
      rw [hl]
      exact List.mem_append_left _ ha
    rw [hl] at hlt
    have hac := (List.pairwise_append.1 hlt).2.2 a ha c List.mem_cons_self
    rw [Bool.not_eq_true', Bool.eq_false_iff]
    intro he
    exact Nat.not_le_of_lt hac (hmin a ha' ((hslot a ha').1 he))

theorem owner?_any_iff (h : l.Sound) (hc : c ∈ l.claims) :
    (l.owner? c.slot).any (·.ticket == c.ticket) = true ↔ l.owner? c.slot = some c := by
  rw [Option.any_eq_true]
  constructor
  · rintro ⟨d, hd, ht⟩
    rw [hd, h.eq_of_ticket (List.mem_of_find?_eq_some hd) hc (eq_of_beq ht)]
  · intro ho
    exact ⟨c, ho, beq_self_eq_true _⟩

/-! ### Who holds a lock afterwards -/

theorem holds_eq_held (h : l.Sound) (hc : c ∈ l.claims) : l.holds c.ticket = c.held := by
  unfold holds
  rw [h.claim?_eq_some_iff.2 ⟨hc, rfl⟩]
  rfl

theorem holds_congr {l' : Locks} (h : l.Sound) (h' : l'.Sound)
    (hc : ∀ c : Claim, c.ticket = t → (c ∈ l'.claims ↔ c ∈ l.claims)) :
    l'.holds t = l.holds t := by
  rw [Bool.eq_iff_iff, h.holds_iff, h'.holds_iff]
  constructor
  · rintro ⟨c, hm, ht, hh⟩
    exact ⟨c, (hc c ht).1 hm, ht, hh⟩
  · rintro ⟨c, hm, ht, hh⟩
    exact ⟨c, (hc c ht).2 hm, ht, hh⟩

theorem holds_request (h : l.Sound) (k : String) (ht : t ≠ l.nextTicket) :
    (l.request k).1.holds t = l.holds t := by
  refine holds_congr h (h.request k) fun c hct => ?_
  rw [mem_claims_request h]
  refine or_iff_left ?_
  rintro rfl
  exact ht hct.symm

theorem holds_poll (h : l.Sound) {x : Nat} (ht : t ≠ x) : (l.poll x).holds t = l.holds t :=
  holds_congr h (h.poll x) fun _ hct => mem_claims_poll_of_ne h (hct ▸ ht)

theorem holds_drop (h : l.Sound) {x : Nat} (ht : t ≠ x) : (l.drop x).holds t = l.holds t :=
  holds_congr h (h.drop x) fun _ hct => (mem_claims_drop h).trans (and_iff_left (hct ▸ ht))

/-- **Who asks has the lock at once if and only if it owns the slot.** -/
theorem held_newClaim_iff (h : l.Sound) (k : String) : (l.newClaim k).held = true ↔
    (l.request k).1.owner? (l.newClaim k).slot = some (l.newClaim k) := by
  have hmem : l.newClaim k ∈ (l.request k).1.claims := (mem_claims_request h).2 (.inr rfl)
  constructor
  · exact (h.request k).first _ hmem
  · intro ho
    unfold owner? at ho
    rw [request_eq l k h, List.find?_append] at ho
    show (!l.taken (l.slotFor k).2) = true
    rw [Bool.not_eq_true', Bool.eq_false_iff]
    intro htaken
    -- somebody is on the slot already, so the new claim is not the first one there
    obtain ⟨d, hd, hds⟩ := List.any_eq_true.1 htaken
    cases hf : l.claims.find? (·.slot == (l.newClaim k).slot) with
    | none => exact absurd hds (List.find?_eq_none.1 hf d hd)
    | some e =>
      rw [hf, Option.some_or, Option.some.injEq] at ho
      exact Nat.lt_irrefl _ (ho ▸ h.ticket_lt e (List.mem_of_find?_eq_some hf))

/-- **Who looks has the lock if and only if it owns the slot.** -/
theorem holds_poll_self_iff (h : l.Sound) (hc : c ∈ l.claims) :
    (l.poll c.ticket).holds c.ticket = true ↔ l.owner? c.slot = some c := by
  constructor
  · intro hh
    rcases poll_eq h c.ticket with he | ⟨_, d, hd, hdt, ho⟩
    · rw [he, holds_eq_held h hc] at hh
      exact h.first c hc hh
    · rw [h.eq_of_ticket hd hc hdt] at ho
      exact ho
  · intro ho
    have hclaim := h.claim?_eq_some_iff.2 ⟨hc, rfl⟩
    unfold poll
    rw [hclaim]
    dsimp only
    split
    · next hheld => exact (holds_eq_held h hc).trans hheld
    · rw [if_pos ((owner?_any_iff h hc).2 ho), if_pos (h.current c hc)]
      unfold holds claim?
      rw [settle_eq_map, List.find?_map]
      have hcomp : ((fun x : Claim => x.ticket == c.ticket) ∘ fun x : Claim =>
          if x.ticket = c.ticket then { x with held := true } else x) =
          fun x : Claim => x.ticket == c.ticket := by
        funext x
        simp only [Function.comp]
        split <;> rfl
      rw [hcomp, show l.claims.find? (·.ticket == c.ticket) = some c from hclaim, Option.map_some,
        if_pos rfl]
      rfl

/-- Who asks when nobody else does has the lock, and finds so when it looks. -/
theorem holds_poll_request_of_idle (h : l.claims = []) (k : String) :
    ((l.request k).1.poll (l.request k).2).holds (l.request k).2 = true := by
  have hclaims : ∃ slot, (l.request k).1.claims = [⟨l.nextTicket, k, slot, true⟩] := by
    unfold request join slotFor taken
    dsimp only
    cases l.slots.get? k <;> exact ⟨_, by rw [h]; rfl⟩
  obtain ⟨slot, hclaims⟩ := hclaims
  have hclaim : (l.request k).1.claim? (l.request k).2 = some ⟨l.nextTicket, k, slot, true⟩ := by
    unfold claim?
    rw [hclaims]
    exact List.find?_cons_of_pos (beq_self_eq_true l.nextTicket)
  have hpoll : (l.request k).1.poll (l.request k).2 = (l.request k).1 := by
    unfold poll
    rw [hclaim]
    exact if_pos rfl
  unfold holds
  rw [hpoll, hclaim]
  rfl

/-! ### Counting who holds on to a slot -/

/-- How many hold on to a slot: the table if it shows it, and each claim twice.  Who waits holds on
to it and has a place in its line, and who has the lock holds on to it and to the lock. -/
def references (l : Locks) (slot : Nat) : Nat :=
  (if l.slots.values.contains slot then 1 else 0) + 2 * (l.claims.filter (·.slot == slot)).length

/-- **A slot goes when a count of those who hold on to it says so**: who drops the lock still holds
on to the slot itself, so the slot goes if besides that only the table does. -/
theorem drop_eq_of_references (l : Locks) (t : Nat) : l.drop t = match l.claim? t with
    | none => l
    | some c =>
      let l' := l.leave t
      if c.held && l'.slots.get? c.key == some c.slot && l'.references c.slot + 1 == 2 then
        { l' with slots := l'.slots.erase c.key }
      else l' := by
  unfold drop
  cases l.claim? t with
  | none => rfl
  | some c =>
    dsimp only
    congr 2
    by_cases hslot : (l.leave t).slots.get? c.key = some c.slot
    · have hshown : (l.leave t).slots.values.contains c.slot = true :=
        List.contains_iff_mem.2 (List.mem_map.2 ⟨_, Table.mem_entries_iff.2 hslot, rfl⟩)
      have htaken : (!(l.leave t).taken c.slot) = ((l.leave t).references c.slot + 1 == 2) := by
        unfold references taken
        rw [hshown, Bool.eq_iff_iff, Bool.not_eq_true', beq_iff_eq, if_pos rfl,
          ← Bool.not_eq_true, List.any_eq_true]
        constructor
        · intro hnone
          have hnil : (l.leave t).claims.filter (·.slot == c.slot) = [] :=
            List.filter_eq_nil_iff.2 fun x hx hs => hnone ⟨x, hx, hs⟩
          rw [hnil]
          rfl
        · rintro hcount ⟨x, hx, hs⟩
          have hmem : x ∈ (l.leave t).claims.filter (·.slot == c.slot) := List.mem_filter.2 ⟨hx, hs⟩
          have hpos := List.length_pos_of_mem hmem
          omega
      rw [htaken]
    · rw [beq_eq_false_iff_ne.2 hslot, Bool.and_false, Bool.false_and, Bool.false_and]

end Discovery.Locks
