import Discovery.Proofs.Locks.Futures

/-!
# Fair locks

* `Tidy.step`: whatever is done with a future, the record of guards stays in order.
* `Tidy.turn`: a future that is polled has the lock then, unless one was polled before it.
* `Tidy.apart`: what is done for one key changes nothing for the futures for others.
* `fair_of_deeds`: so the locks are fair after any list of deeds.
-/

namespace Discovery.Locks.Futures

variable {s s' : Futures} {n m t : Nat} {k : String} {f : Future}

/-! ### Guards are granted in order -/

/-- The record of guards is in order, and whoever waits was polled after all who have been guards
of its key. -/
structure Tidy (s : Futures) : Prop extends Matched s where
  recorded : ∀ g ∈ s.granted, g ∈ s.polled
  inOrder : s.granted.Pairwise fun g m => s.key? g = s.key? m → s.rank g < s.rank m
  behind : ∀ g ∈ s.granted, ∀ m k, s.Asks m k → s.key? g = some k → s.holds m = false →
    s.rank g < s.rank m

theorem key?_of_asks (h : s.Asks n k) : s.key? n = some k := by
  obtain ⟨t, ht⟩ := h
  unfold key?
  rw [ht]
  rfl

theorem asks_inj {k' : String} (h : s.Asks n k) (h' : s.Asks n k') : k = k' :=
  Option.some.inj ((key?_of_asks h).symm.trans (key?_of_asks h'))

theorem holds_grant (s : Futures) (n m : Nat) : (s.grant n).holds m = s.holds m := by
  unfold grant
  split <;> rfl

theorem made_grant (s : Futures) (n : Nat) : (s.grant n).made = s.made := by
  unfold grant
  split <;> rfl

theorem rank_grant (s : Futures) (n m : Nat) : (s.grant n).rank m = s.rank m := by
  unfold grant
  split <;> rfl

theorem asks_grant : (s.grant n).Asks m k ↔ s.Asks m k := by
  unfold Asks
  rw [made_grant]

/-- **A future that was polled is put on record.** -/
theorem Matched.grant (h : s.Matched) (hn : s.Asks n k) (hrec : ∀ g ∈ s.granted, g ∈ s.polled)
    (hord : s.granted.Pairwise fun g m => s.key? g = s.key? m → s.rank g < s.rank m)
    (hbehind : ∀ g ∈ s.granted, ∀ m k, s.Asks m k → s.key? g = some k →
      m = n ∨ s.holds m = false → s.rank g < s.rank m) : (s.grant n).Tidy := by
  unfold Futures.grant
  by_cases hh : s.holds n = true
  · rw [if_pos hh]
    refine ⟨⟨h.sound, h.sorted, h.next, h.claim, h.future, h.place, h.begun, h.nodup⟩,
      fun g hg => ?_, ?_, fun g hg m k' hm hk' hw => ?_⟩
    · rcases List.mem_append.1 hg with hg | hg
      · exact hrec g hg
      · obtain rfl := List.mem_singleton.1 hg
        exact h.mem_polled hn
    · refine List.pairwise_append.2 ⟨hord, List.pairwise_singleton _ _, fun g hg x hx hkey => ?_⟩
      obtain rfl := List.mem_singleton.1 hx
      exact hbehind g hg x k hn (hkey.trans (key?_of_asks hn)) (.inl rfl)
    · rcases List.mem_append.1 hg with hg | hg
      · exact hbehind g hg m k' hm hk' (.inr hw)
      · obtain rfl := List.mem_singleton.1 hg
        -- the new guard was polled before all who wait
        obtain rfl := Option.some.inj ((key?_of_asks hn).symm.trans hk')
        refine h.rank_lt_of_holds hn hh hm ?_
        rintro rfl
        exact nomatch hh.symm.trans hw
  · rw [if_neg hh]
    exact ⟨h, hrec, hord, fun g hg m k' hm hk' hw => hbehind g hg m k' hm hk' (.inr hw)⟩

/-- Nobody is granted anything, and who waits has waited before. -/
theorem Tidy.frame (h : s.Tidy) (h' : s'.Matched) (hp : s'.polled = s.polled)
    (hg : s'.granted = s.granted) (hkey : ∀ n ∈ s.polled, s'.key? n = s.key? n)
    (hasks : ∀ m k, s'.Asks m k → s.Asks m k ∧ s'.holds m = s.holds m) : s'.Tidy := by
  have hrank : ∀ m, s'.rank m = s.rank m := by
    intro m
    unfold rank
    rw [hp]
  refine ⟨h', by rw [hg, hp]; exact h.recorded, ?_, fun g hmem m k hm hk hw => ?_⟩
  · rw [hg]
    refine h.inOrder.imp_of_mem fun {g m} hgm hmm hlt hk => ?_
    rw [hrank, hrank]
    rw [hkey g (h.recorded g hgm), hkey m (h.recorded m hmm)] at hk
    exact hlt hk
  · rw [hg] at hmem
    obtain ⟨hm, hh⟩ := hasks m k hm
    rw [hkey g (h.recorded g hmem)] at hk
    rw [hrank, hrank]
    exact h.behind g hmem m k hm hk (hh ▸ hw)

theorem Tidy.make (h : s.Tidy) (k : String) : (s.step (.make k)).Tidy := by
  refine h.frame (h.toMatched.make k) rfl rfl (fun n hn => ?_) fun m k' hm => ?_
  · obtain ⟨f, hf, _⟩ := h.begun n hn
    show ((s.made ++ [Future.fresh k])[n]?).map _ = (s.made[n]?).map _
    rw [List.getElem?_append_left (List.getElem?_eq_some_iff.1 hf).1]
  · obtain ⟨t, ht⟩ := hm
    have hold : s.made[m]? = some (.asked k' t) := by
      change (s.made ++ [Future.fresh k])[m]? = _ at ht
      rw [List.getElem?_append] at ht
      split at ht
      · exact ht
      · exact nomatch List.mem_singleton.1 (List.mem_of_getElem? ht)
    exact ⟨⟨t, hold⟩, (holds_eq ht).trans (holds_eq hold).symm⟩

theorem asks_discard (hn : s.made[n]? = some f) {l : Locks} {k k' : String}
    (hl : ∀ (m : Nat) (k : String) (t : Nat), m ≠ n → s.made[m]? = some (.asked k t) →
      l.holds t = s.locks.holds t)
    (hm : (s.discard n k l).Asks m k') :
    s.Asks m k' ∧ (s.discard n k l).holds m = s.holds m := by
  obtain ⟨t, ht⟩ := hm
  have hmade : (s.discard n k l).made[m]? = if m = n then some (.dropped k) else s.made[m]? :=
    getElem?_set_of hn _ m
  have hold := ht
  rw [hmade] at hold
  split at hold
  · exact nomatch hold
  · next hmn =>
    refine ⟨⟨t, hold⟩, ?_⟩
    rw [holds_eq ht, holds_eq hold]
    exact hl m k' t hmn hold

theorem key?_discard (hn : s.made[n]? = some f) (l : Locks) (m : Nat) :
    (s.discard n f.key l).key? m = s.key? m := by
  unfold key?
  rw [show (s.discard n f.key l).made[m]? = _ from getElem?_set_of hn _ m]
  split
  · next hmn =>
    rw [hmn, hn]
    rfl
  · rfl

theorem Matched.holds_drop (h : s.Matched) (hn : s.made[n]? = some (.asked k t)) (m : Nat)
    (k' : String) (u : Nat) (hmn : m ≠ n) (hm : s.made[m]? = some (.asked k' u)) :
    (s.locks.drop t).holds u = s.locks.holds u := by
  refine Locks.holds_drop h.sound ?_
  rintro rfl
  exact hmn (h.eq_of_ticket hm hn)

theorem Tidy.drop (h : s.Tidy) (n : Nat) : (s.step (.drop n)).Tidy := by
  unfold step
  dsimp only
  cases hn : s.made[n]? with
  | none => exact h
  | some f =>
    cases f with
    | fresh k =>
      exact h.frame (h.toMatched.discard_fresh hn) rfl rfl (fun m _ => key?_discard hn _ m)
        fun m k' hm => asks_discard hn (fun _ _ _ _ _ => rfl) hm
    | asked k t =>
      exact h.frame (h.toMatched.discard_asked hn) rfl rfl (fun m _ => key?_discard hn _ m)
        fun m k' hm => asks_discard hn (h.toMatched.holds_drop hn) hm
    | dropped k => exact h

theorem made_ask (hn : s.made[n]? = some f) (k : String) (m : Nat) : (s.ask n k).made[m]? =
    if m = n then some (.asked k s.locks.nextTicket) else s.made[m]? :=
  getElem?_set_of hn _ m

theorem Matched.holds_ask (h : s.Matched) (hn : s.made[n]? = some f) (k : String) (hmn : m ≠ n) :
    (s.ask n k).holds m = s.holds m := by
  unfold holds
  rw [made_ask hn, if_neg hmn]
  split
  · next _ t hm => exact holds_request h.sound k (Nat.ne_of_lt (h.ticket_lt hm))
  · rfl

theorem Matched.holds_look (h : s.Matched) (hn : s.made[n]? = some (.asked k t)) (hmn : m ≠ n) :
    (s.look t).holds m = s.holds m := by
  have hmade : (s.look t).made = s.made := rfl
  unfold holds
  rw [hmade]
  cases hm : s.made[m]? with
  | none => rfl
  | some f =>
    cases f with
    | asked k' u =>
      refine holds_poll h.sound ?_
      rintro rfl
      exact hmn (h.eq_of_ticket hm hn)
    | fresh k' => rfl
    | dropped k' => rfl

theorem key?_ask (hn : s.made[n]? = some (.fresh k)) (m : Nat) :
    (s.ask n k).key? m = s.key? m := by
  unfold key?
  rw [made_ask hn]
  split
  · next hmn =>
    rw [hmn, hn]
    rfl
  · rfl

/-- A future that is polled for the first time comes after all others. -/
theorem Tidy.ask (h : s.Tidy) (hn : s.made[n]? = some (.fresh k)) :
    ((s.ask n k).grant n).Tidy := by
  have hmade := made_ask hn k
  have hself : (s.ask n k).made[n]? = some (.asked k s.locks.nextTicket) :=
    (hmade n).trans (if_pos rfl)
  have hrank : ∀ g ∈ s.granted, (s.ask n k).rank g = s.rank g :=
    fun g hg => List.idxOf_append_of_mem (h.recorded g hg)
  refine (h.toMatched.ask hn).grant ⟨_, hself⟩
    (fun g hg => List.mem_append_left _ (h.recorded g hg)) ?_ fun g hg m k' hm hk' hw => ?_
  · refine h.inOrder.imp_of_mem fun {g m} hg hm hlt hk => ?_
    rw [hrank g hg, hrank m hm]
    rw [key?_ask hn, key?_ask hn] at hk
    exact hlt hk
  · rw [hrank g hg]
    rw [key?_ask hn] at hk'
    by_cases hmn : m = n
    · rw [hmn, (h.toMatched.ask hn).rank_eq hself, h.next]
      exact List.idxOf_lt_length_iff.2 (h.recorded g hg)
    · obtain ⟨t, ht⟩ := hm
      have hold := (hmade m).symm.trans ht
      rw [if_neg hmn] at hold
      have hrankm : (s.ask n k).rank m = s.rank m := by
        rw [(h.toMatched.ask hn).rank_eq ht, h.rank_eq hold]
      rw [hrankm]
      refine h.behind g hg m k' ⟨t, hold⟩ hk' ?_
      rw [← h.toMatched.holds_ask hn k hmn]
      exact hw.resolve_left hmn

theorem Tidy.look (h : s.Tidy) (hn : s.made[n]? = some (.asked k t))
    (hh : ¬ s.locks.holds t = true) : ((s.look t).grant n).Tidy := by
  refine (h.toMatched.look t).grant ⟨t, hn⟩ h.recorded h.inOrder
    fun g hg m k' hm hk' hw => h.behind g hg m k' hm hk' ?_
  by_cases hmn : m = n
  · rw [hmn, holds_eq hn]
    exact Bool.eq_false_iff.2 hh
  · rw [← h.toMatched.holds_look hn hmn]
    exact hw.resolve_left hmn

theorem Tidy.poll (h : s.Tidy) (n : Nat) : (s.step (.poll n)).Tidy := by
  unfold step
  dsimp only
  cases hn : s.made[n]? with
  | none => exact h
  | some f =>
    cases f with
    | fresh k => exact h.ask hn
    | asked k t =>
      dsimp only
      split
      · exact h
      · next hh => exact h.look hn hh
    | dropped k => exact h

/-- **Whatever is done with a future, locks, futures and record go on matching.** -/
theorem Tidy.step (h : s.Tidy) (d : Deed) : (s.step d).Tidy := by
  cases d with
  | make k => exact h.make k
  | poll n => exact h.poll n
  | drop n => exact h.drop n

theorem tidy_empty : Tidy ∅ where
  sound := sound_empty
  sorted := List.Pairwise.nil
  next := rfl
  claim h := nomatch h
  future _ h := nomatch h
  place h := nomatch h
  begun _ h := nomatch h
  nodup := List.nodup_nil
  recorded _ h := nomatch h
  inOrder := List.Pairwise.nil
  behind _ h := nomatch h

theorem Tidy.run (h : s.Tidy) : ∀ ds, (s.run ds).Tidy := by
  intro ds
  induction ds generalizing s with
  | nil => exact h
  | cons d ds ih => exact ih (h.step d)

/-! ### What follows -/

/-- **A future that is polled has the lock then, unless one for the same key was polled before**
and is still there. -/
theorem Tidy.turn (h : s.Tidy) (hn : (s.step (.poll n)).Asks n k) :
    (s.step (.poll n)).holds n = true ↔
      ∀ m, (s.step (.poll n)).Asks m k → (s.step (.poll n)).rank n ≤ (s.step (.poll n)).rank m := by
  unfold Futures.step at hn ⊢
  dsimp only at hn ⊢
  cases hf : s.made[n]? with
  | none =>
    rw [hf] at hn
    obtain ⟨t, ht⟩ := hn
    exact nomatch hf.symm.trans ht
  | some f =>
    rw [hf] at hn
    cases f with
    | fresh k' =>
      have ha := h.toMatched.ask hf
      have hself : (s.ask n k').made[n]? = some (.asked k' s.locks.nextTicket) :=
        (made_ask hf k' n).trans (if_pos rfl)
      obtain rfl := asks_inj ⟨_, hself⟩ (asks_grant.1 hn)
      have hc : s.locks.newClaim k' ∈ (s.ask n k').locks.claims :=
        (mem_claims_request h.sound).2 (.inr rfl)
      dsimp only
      simp only [holds_grant, asks_grant, rank_grant]
      exact (ha.holds_iff hself hc rfl).trans
        ((held_newClaim_iff h.sound k').trans (ha.owner?_iff hself hc rfl))
    | asked k' t =>
      dsimp only at hn ⊢
      split at hn
      · next hh =>
        obtain rfl := asks_inj ⟨t, hf⟩ hn
        rw [if_pos hh]
        refine ⟨fun _ m hm => ?_, fun _ => (holds_eq hf).trans hh⟩
        exact h.rank_le_of_holds ⟨t, hf⟩ ((holds_eq hf).trans hh) hm
      · next hh =>
        obtain rfl := asks_inj (s := s.look t) ⟨t, hf⟩ (asks_grant.1 hn)
        obtain ⟨c, hc, rfl, _⟩ := h.claim hf
        rw [if_neg hh]
        simp only [holds_grant, asks_grant, rank_grant]
        have hlook : (s.look c.ticket).holds n = (s.locks.poll c.ticket).holds c.ticket :=
          holds_eq (s := s.look c.ticket) hf
        rw [hlook]
        exact (holds_poll_self_iff h.sound hc).trans (h.owner?_iff hf hc rfl)
    | dropped k' =>
      obtain ⟨t, ht⟩ := hn
      exact nomatch hf.symm.trans ht

/-- **What is done with the futures for other keys changes nothing for a future.** -/
theorem Tidy.apart (h : s.Tidy) (d : Deed) (hn : s.key? n = some k)
    (hd : ∀ m, d.future? = some m → s.key? m ≠ some k) :
    (s.step d).made[n]? = s.made[n]? ∧ (s.step d).holds n = s.holds n := by
  have hsame : ∀ {s' : Futures}, s'.made[n]? = s.made[n]? →
      (∀ t, s.made[n]? = some (.asked k t) → s'.locks.holds t = s.locks.holds t) →
      s'.made[n]? = s.made[n]? ∧ s'.holds n = s.holds n := by
    intro s' hmade hlocks
    refine ⟨hmade, ?_⟩
    unfold holds
    rw [hmade]
    split
    · next k' t ht =>
      obtain rfl := Option.some.inj ((key?_of_asks ⟨t, ht⟩).symm.trans hn)
      exact hlocks t ht
    · rfl
  have hne : ∀ m, d.future? = some m → n ≠ m := by
    rintro m hm rfl
    exact hd n hm hn
  cases d with
  | make k' =>
    refine hsame ?_ fun _ _ => rfl
    obtain ⟨f, hf, _⟩ := Option.map_eq_some_iff.1 hn
    show (s.made ++ [Future.fresh k'])[n]? = s.made[n]?
    exact List.getElem?_append_left (List.getElem?_eq_some_iff.1 hf).1
  | poll m =>
    have hnm := hne m rfl
    unfold Futures.step
    dsimp only
    split
    · next k' hm =>
      rw [made_grant, holds_grant]
      exact ⟨(made_ask hm k' n).trans (if_neg hnm), h.toMatched.holds_ask hm k' hnm⟩
    · next k' t hm =>
      split
      · exact ⟨rfl, rfl⟩
      · rw [made_grant, holds_grant]
        exact ⟨rfl, h.toMatched.holds_look hm hnm⟩
    · exact ⟨rfl, rfl⟩
  | drop m =>
    have hnm := hne m rfl
    unfold Futures.step
    dsimp only
    split
    · next k' hm =>
      exact hsame ((getElem?_set_of hm _ n).trans (if_neg hnm)) fun _ _ => rfl
    · next k' t hm =>
      exact hsame ((getElem?_set_of hm _ n).trans (if_neg hnm)) fun u hu =>
        h.toMatched.holds_drop hm n k u hnm hu
    · exact ⟨rfl, rfl⟩

/-- **The locks are fair**, whatever futures are made, polled and dropped, and in which order. -/
theorem fair_of_deeds (ds : List Deed) : (run ∅ ds).Fair := by
  have h : (run ∅ ds).Tidy := tidy_empty.run ds
  refine ⟨fun {n m k} hn hm hhn hhm => ?_, fun {n k t} hn => ?_, fun t => ?_, h.inOrder, h.turn,
    fun d {_ _} hn hd => h.apart d hn hd⟩
  · have hle := h.rank_le_of_holds hn hhn hm
    have hge := h.rank_le_of_holds hm hhm hn
    exact h.eq_of_rank hn hm (Nat.le_antisymm hle hge)
  · obtain ⟨c, hc, ht, hk⟩ := h.claim hn
    exact ⟨c, h.sound.claim?_eq_some_iff.2 ⟨hc, ht⟩, hk, hk ▸ h.sound.current c hc⟩
  · exact (poll_eq h.sound t).imp id And.left

/-- The first of three is dropped while the second waits, and the third comes before the second is
polled again. -/
example : (run ∅ [.make "k", .make "k", .make "k", .poll 0, .poll 1, .drop 0, .poll 2, .poll 1,
    .poll 2, .drop 1, .poll 2]).granted = [0, 1, 2] := by decide

end Discovery.Locks.Futures
