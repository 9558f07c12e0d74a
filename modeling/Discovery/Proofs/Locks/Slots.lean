import Discovery.Proofs.Locks.Fair
import Discovery.Proofs.Since

/-!
# The slots that are left

A key that nobody is in line for needs no slot.  A guard that is dropped takes the slot along, if
nobody else is in line.  A future may be dropped as well when the lock is its own already and it has
not been told so, and then the slot stays, until the next guard of the key takes it along.

* `Strands`, `Stranded`: the last in line is dropped without having been told, and nobody has lined
  up since.
* `slot_step_iff`: what becomes of the slot of a key.
* `slot_iff_of_deeds`: a key has a slot if and only if somebody is in line for it or its slot is
  stranded.
-/

namespace Discovery.Locks.Futures

variable {s : Futures} {n m t : Nat} {k k' : String} {d : Deed} {ds : List Deed}

def hasSlot (s : Futures) (k : String) : Bool :=
  s.locks.slots.contains k

/-- Somebody waits for the lock of a key or is its guard. -/
def InLine (s : Futures) (k : String) : Prop :=
  ∃ n, s.Asks n k

/-- **The last in line is dropped and does not know that the lock is its own.** -/
def Strands (s : Futures) (k : String) (d : Deed) : Prop :=
  ∃ n, d = .drop n ∧ s.Asks n k ∧ s.holds n = false ∧ ∀ m, s.Asks m k → m = n

/-- **The slot of a key is stranded**: the last who was in line was dropped without knowing that the
lock was its own, and nobody has lined up since. -/
def Stranded (k : String) : List Deed → Prop :=
  Since (fun ds d => (run ∅ ds).Strands k d) fun ds d => ¬ (run ∅ (ds ++ [d])).InLine k

/-! ### Slots of the locks -/

theorem contains_request (l : Locks) (h : l.Sound) (k k' : String) :
    (l.request k).1.slots.contains k' = true ↔ k' = k ∨ l.slots.contains k' = true := by
  rw [request_eq l k h]
  unfold slotFor
  cases hk : l.slots.get? k with
  | some i =>
    refine (or_iff_right_of_imp ?_).symm
    rintro rfl
    simp [Table.contains, hk]
  | none =>
    by_cases hkk : k' = k <;> simp [Table.contains, Table.get?_insert, hkk]

theorem slots_poll {l : Locks} (h : l.Sound) (t : Nat) : (l.poll t).slots = l.slots := by
  rcases poll_eq h t with he | ⟨he, _⟩ <;> rw [he]
  rfl

/-- A slot goes when its lock is given up by the only one in line for it, who has it. -/
theorem contains_drop {l : Locks} (h : l.Sound) {c : Claim} (hc : c ∈ l.claims) (k : String) :
    (l.drop c.ticket).slots.contains k = true ↔ l.slots.contains k = true ∧
      ¬ (k = c.key ∧ c.held = true ∧ ∀ d ∈ l.claims, d.key = c.key → d = c) := by
  have hcurrent : (l.leave c.ticket).slots.get? c.key = some c.slot := h.current c hc
  have hfree : (l.leave c.ticket).taken c.slot = false ↔
      ∀ d ∈ l.claims, d.key = c.key → d = c := by
    rw [Bool.eq_false_iff, Ne, taken, List.any_eq_true]
    constructor
    · intro hnone d hd hk
      by_contra hne
      refine hnone ⟨d, mem_claims_leave.2 ⟨hd, fun ht => hne (h.eq_of_ticket hd hc ht)⟩, ?_⟩
      exact beq_iff_eq.2 ((h.slot_eq_iff hc hd).2 hk)
    · rintro hall ⟨d, hd, hs⟩
      obtain ⟨hd, hne⟩ := mem_claims_leave.1 hd
      exact hne (congrArg Claim.ticket (hall d hd ((h.slot_eq_iff hc hd).1 (eq_of_beq hs))))
  unfold drop
  rw [h.claim?_eq_some_iff.2 ⟨hc, rfl⟩]
  simp only [hcurrent, beq_self_eq_true, Bool.and_true]
  by_cases hgone : c.held = true ∧ ∀ d ∈ l.claims, d.key = c.key → d = c
  · rw [if_pos (by simp [hgone.1, hfree.2 hgone.2])]
    simp only [Table.contains, Table.get?_erase]
    by_cases hk : k = c.key
    · rw [if_pos hk]
      exact iff_of_false Bool.false_ne_true fun hslot => hslot.2 ⟨hk, hgone⟩
    · rw [if_neg hk]
      exact (and_iff_left fun hslot => hk hslot.1).symm
  · rw [if_neg (by simpa [hfree] using hgone)]
    refine (and_iff_left ?_).symm
    rintro ⟨_, hheld⟩
    exact hgone hheld

theorem locks_grant (s : Futures) (n : Nat) : (s.grant n).locks = s.locks := by
  unfold grant
  split <;> rfl

/-! ### Who is in line -/

theorem Matched.hasSlot_of_inLine (h : s.Matched) (hk : s.InLine k) : s.hasSlot k = true := by
  obtain ⟨n, t, hn⟩ := hk
  obtain ⟨c, hc, _, rfl⟩ := h.claim hn
  unfold hasSlot Table.contains
  rw [h.sound.current c hc]
  rfl

theorem inLine_make (s : Futures) (k' k : String) :
    (s.step (.make k')).InLine k ↔ s.InLine k := by
  refine exists_congr fun n => exists_congr fun t => ?_
  show (s.made ++ [Future.fresh k'])[n]? = some (.asked k t) ↔ _
  rw [List.getElem?_append]
  split
  · exact .rfl
  · next hn =>
    rw [List.getElem?_eq_none (Nat.le_of_not_lt hn)]
    refine iff_of_false (fun h => ?_) nofun
    exact nomatch List.mem_singleton.1 (List.mem_of_getElem? h)

theorem inLine_ask (hn : s.made[n]? = some (.fresh k')) (k : String) :
    (s.ask n k').InLine k ↔ k = k' ∨ s.InLine k := by
  have hmade := made_ask hn k'
  constructor
  · rintro ⟨m, t, hm⟩
    rw [hmade] at hm
    split at hm
    · cases hm
      exact .inl rfl
    · exact .inr ⟨m, t, hm⟩
  · rintro (rfl | ⟨m, t, hm⟩)
    · exact ⟨n, _, (hmade n).trans (if_pos rfl)⟩
    · refine ⟨m, t, (hmade m).trans ?_⟩
      rw [if_neg, hm]
      rintro rfl
      exact nomatch hn.symm.trans hm

theorem inLine_discard {f : Future} (hn : s.made[n]? = some f) (k' : String) (l : Locks)
    (k : String) : (s.discard n k' l).InLine k ↔ ∃ m, m ≠ n ∧ s.Asks m k := by
  refine exists_congr fun m => ?_
  have hmade : (s.discard n k' l).made[m]? = if m = n then some (.dropped k') else s.made[m]? :=
    getElem?_set_of hn _ m
  unfold Asks
  rw [hmade]
  by_cases hm : m = n <;> simp [hm]

/-! ### One deed -/

theorem Matched.slot_iff_of_same (h : s.Matched) {s' : Futures}
    (hslot : s'.hasSlot k = true ↔ s.hasSlot k = true) (hline : s'.InLine k ↔ s.InLine k)
    (hd : ¬ s.Strands k d) : s'.hasSlot k = true ↔
      s'.InLine k ∨ s.Strands k d ∨ s.hasSlot k = true ∧ ¬ s.InLine k ∧ ¬ s'.InLine k := by
  rw [hslot, hline]
  by_cases hk : s.InLine k
  · exact iff_of_true (h.hasSlot_of_inLine hk) (.inl hk)
  · simp [hk, hd]

/-- **A future is dropped** that waits for the lock of a key or is its guard. -/
theorem Matched.slot_iff_of_drop (h : s.Matched) (hn : s.made[n]? = some (.asked k' t)) :
    (s.discard n k' (s.locks.drop t)).hasSlot k = true ↔
      (s.discard n k' (s.locks.drop t)).InLine k ∨ s.Strands k (.drop n) ∨
        s.hasSlot k = true ∧ ¬ s.InLine k ∧ ¬ (s.discard n k' (s.locks.drop t)).InLine k := by
  obtain ⟨c, hc, rfl, rfl⟩ := h.claim hn
  have hdrop := contains_drop h.sound hc k
  have hline := inLine_discard hn c.key (s.locks.drop c.ticket) k
  by_cases hk : k = c.key
  · subst hk
    have hasks : s.Asks n c.key := ⟨c.ticket, hn⟩
    have halone : (∀ d ∈ s.locks.claims, d.key = c.key → d = c) ↔ ∀ m, s.Asks m c.key → m = n := by
      constructor
      · rintro hall m ⟨u, hm⟩
        obtain ⟨d, hd, rfl, hdk⟩ := h.claim hm
        exact h.eq_of_ticket (hall d hd hdk ▸ hm) hn
      · intro hall d hd hdk
        obtain ⟨m, hm⟩ := h.future d hd
        obtain rfl := hall m ⟨d.ticket, hdk ▸ hm⟩
        exact h.sound.eq_of_ticket hd hc (Future.asked.inj (Option.some.inj (hm.symm.trans hn))).2
    have hheld : s.holds n = c.held := by rw [holds_eq hn, holds_eq_held h.sound hc]
    have hstrands : s.Strands c.key (.drop n) ↔
        c.held = false ∧ ∀ m, s.Asks m c.key → m = n := by
      simp only [Strands, Deed.drop.injEq, exists_eq_left', hasks, true_and, hheld]
    have hslot : s.hasSlot c.key = true := h.hasSlot_of_inLine ⟨n, hasks⟩
    have hdropped : (s.discard n c.key (s.locks.drop c.ticket)).hasSlot c.key = true ↔
        ¬ (c.held = true ∧ ∀ m, s.Asks m c.key → m = n) := by
      rw [← halone]
      refine hdrop.trans ((and_iff_right hslot).trans (not_congr ?_))
      exact and_iff_right rfl
    rw [hdropped, hline, hstrands]
    by_cases hall : ∀ m, s.Asks m c.key → m = n
    · -- nobody else is in line
      have hnobody : ¬ ∃ m, m ≠ n ∧ s.Asks m c.key := fun ⟨m, hm, ha⟩ => hm (hall m ha)
      have hbefore : s.InLine c.key := ⟨n, hasks⟩
      rw [iff_true_intro hall, iff_false_intro hnobody]
      simp [hbefore]
    · have hother : ∃ m, m ≠ n ∧ s.Asks m c.key := by
        by_contra hnone
        exact hall fun m ha => by_contra fun hm => hnone ⟨m, hm, ha⟩
      exact iff_of_true (fun h => hall h.2) (.inl hother)
  · -- the line for the key goes on as it was
    refine h.slot_iff_of_same (hdrop.trans (and_iff_left fun hkey => hk hkey.1)) ?_ ?_
    · rw [hline]
      refine exists_congr fun m => and_iff_right_of_imp ?_
      rintro ⟨u, hm⟩ rfl
      exact hk (Future.asked.inj (Option.some.inj (hm.symm.trans hn))).1
    · rintro ⟨m, hm, ⟨u, ha⟩, _⟩
      obtain rfl := Deed.drop.inj hm
      exact hk (Future.asked.inj (Option.some.inj (ha.symm.trans hn))).1

/-- **What becomes of the slot of a key**: it is there while somebody is in line for the key, and
stays when it is stranded, as long as nobody lines up. -/
theorem Tidy.slot_step_iff (h : s.Tidy) (d : Deed) (k : String) : (s.step d).hasSlot k = true ↔
    (s.step d).InLine k ∨ s.Strands k d ∨
      s.hasSlot k = true ∧ ¬ s.InLine k ∧ ¬ (s.step d).InLine k := by
  have hm := h.toMatched
  have hquiet : ∀ d : Deed, (∀ n, d = .drop n → ∀ k, ¬ s.Asks n k) → ¬ s.Strands k d := by
    rintro d hd ⟨n, rfl, hasks, _⟩
    exact hd n rfl k hasks
  cases d with
  | make k' => exact hm.slot_iff_of_same .rfl (inLine_make s k' k) (hquiet _ nofun)
  | poll n =>
    have hno := hquiet (.poll n) nofun
    unfold Futures.step
    dsimp only
    split
    · next k' hn =>
      have hline : ((s.ask n k').grant n).InLine k ↔ k = k' ∨ s.InLine k :=
        (exists_congr fun _ => asks_grant).trans (inLine_ask hn k)
      have hslot : ((s.ask n k').grant n).hasSlot k = true ↔ k = k' ∨ s.hasSlot k = true := by
        unfold hasSlot
        rw [locks_grant]
        exact contains_request _ h.sound k' k
      by_cases hk : k = k'
      · exact iff_of_true (hslot.2 (.inl hk)) (.inl (hline.2 (.inl hk)))
      · exact hm.slot_iff_of_same (hslot.trans (or_iff_right hk))
          (hline.trans (or_iff_right hk)) hno
    · next k' t hn =>
      split
      · exact hm.slot_iff_of_same .rfl .rfl hno
      · have hslot : ((s.look t).grant n).hasSlot k = s.hasSlot k := by
          unfold hasSlot
          rw [locks_grant]
          exact congrArg (·.contains k) (slots_poll h.sound t)
        exact hm.slot_iff_of_same (by rw [hslot]) (exists_congr fun _ => asks_grant) hno
    · exact hm.slot_iff_of_same .rfl .rfl hno
  | drop n =>
    unfold Futures.step
    dsimp only
    split
    · next k' hn =>
      have hfresh : ∀ m, s.Asks m k → m ≠ n := by
        rintro m ⟨t, ha⟩ rfl
        exact nomatch hn.symm.trans ha
      refine hm.slot_iff_of_same .rfl ?_ (hquiet _ fun m hmn k ha => ?_)
      · rw [inLine_discard hn]
        exact exists_congr fun m => and_iff_right_of_imp (hfresh m)
      · obtain rfl := Deed.drop.inj hmn
        obtain ⟨t, ha⟩ := ha
        exact nomatch hn.symm.trans ha
    · next k' t hn => exact hm.slot_iff_of_drop hn
    · next hnone =>
      refine hm.slot_iff_of_same .rfl .rfl (hquiet _ fun m hmn k ha => ?_)
      obtain rfl := Deed.drop.inj hmn
      obtain ⟨t, ha⟩ := ha
      exact hnone k t ha

/-! ### All deeds -/

theorem Strands.not_inLine (h : s.Strands k d) : ¬ (s.step d).InLine k := by
  obtain ⟨n, rfl, ⟨t, hn⟩, _, halone⟩ := h
  have hstep : s.step (.drop n) = s.discard n k (s.locks.drop t) := by
    unfold step
    dsimp only
    rw [hn]
  rw [hstep, inLine_discard hn]
  rintro ⟨m, hm, ha⟩
  exact hm (halone m ha)

theorem run_concat (s : Futures) (ds : List Deed) (d : Deed) :
    s.run (ds ++ [d]) = (s.run ds).step d :=
  List.foldl_concat _ _ _ _

theorem Stranded.not_inLine (h : Stranded k ds) : ¬ (run ∅ ds).InLine k := by
  rcases List.eq_nil_or_concat ds with rfl | ⟨ds, d, rfl⟩
  · exact absurd h not_since_nil
  · rw [List.concat_eq_append] at h ⊢
    rcases since_concat.1 h with h | ⟨_, h⟩
    · rw [run_concat]
      exact h.not_inLine
    · exact h

theorem slot_iff (ds : List Deed) (k : String) :
    (run ∅ ds).hasSlot k = true ↔ (run ∅ ds).InLine k ∨ Stranded k ds := by
  induction ds using List.reverseRecOn with
  | nil =>
    refine iff_of_false nofun ?_
    rintro (⟨n, t, hn⟩ | h)
    · exact nomatch hn
    · exact not_since_nil h
  | append_singleton ds d ih =>
    have hstep := (tidy_empty.run ds).slot_step_iff d k
    -- where nobody is in line before, the slot can only be a stranded one
    have hstays : ((run ∅ ds).InLine k ∨ Stranded k ds) ∧ ¬ (run ∅ ds).InLine k ∧
        ¬ ((run ∅ ds).step d).InLine k ↔ Stranded k ds ∧ ¬ ((run ∅ ds).step d).InLine k := by
      constructor
      · rintro ⟨hbefore, hnobody, hafter⟩
        exact ⟨hbefore.resolve_left hnobody, hafter⟩
      · rintro ⟨hstranded, hafter⟩
        exact ⟨.inr hstranded, hstranded.not_inLine, hafter⟩
    rw [run_concat, hstep, ih, hstays, ← run_concat]
    unfold Stranded
    rw [since_concat]

/-- **A slot is there for somebody, or it is stranded.**  Whatever futures for locks are made,
polled and dropped, and in which order, a key has a slot if and only if a future waits for its lock
or is its guard, or else the last that was there was dropped when it had been handed the lock and
had not been polled since, and nobody has lined up for the key since.  So there are no slots at all
if and only if all guards and futures are gone and none has gone like that. -/
theorem slot_iff_of_deeds (ds : List Deed) :
    (∀ k, (run ∅ ds).hasSlot k = true ↔ (run ∅ ds).InLine k ∨ Stranded k ds) ∧
      ((run ∅ ds).locks.size = 0 ↔ ∀ k, ¬ (run ∅ ds).InLine k ∧ ¬ Stranded k ds) := by
  refine ⟨slot_iff ds, ?_⟩
  have hsize : (run ∅ ds).locks.size = 0 ↔ ∀ k, ¬ (run ∅ ds).hasSlot k = true := by
    unfold Locks.size Table.size
    rw [List.length_eq_zero_iff]
    constructor
    · intro hnil k hk
      have hmem := Table.mem_keys_iff.2 hk
      unfold Table.keys at hmem
      rw [hnil] at hmem
      exact nomatch hmem
    · intro hnone
      refine List.eq_nil_iff_forall_not_mem.2 fun e he => hnone e.1 (Table.mem_keys_iff.1 ?_)
      exact List.mem_map_of_mem he
  rw [hsize]
  exact forall_congr' fun k => by rw [slot_iff, not_or]

/-- A guard and one who waits for it; the guard is dropped, and then the other one is. -/
def handedOver : List Deed :=
  [.make "k", .make "k", .poll 0, .poll 1, .drop 0, .drop 1]

/-- **A slot is left though nobody is there.** -/
theorem slot_of_handedOver : (∀ k, ¬ (run ∅ handedOver).InLine k) ∧
    (run ∅ handedOver).hasSlot "k" = true ∧ (run ∅ handedOver).locks.size = 1 := by
  refine ⟨?_, by decide, by decide⟩
  rintro k ⟨n, t, hn⟩
  match n, hn with
  | 0, hn => exact nomatch hn
  | 1, hn => exact nomatch hn

/-- The next guard takes it along. -/
example : (run ∅ (handedOver ++ [.make "k", .poll 2, .drop 2])).locks.size = 0 := by decide

end Discovery.Locks.Futures
