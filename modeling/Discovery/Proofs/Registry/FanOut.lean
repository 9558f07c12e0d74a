import Discovery.Proofs.Registry.OneWatch

/-!
# Telling every consumer once

Several keys may have their node at one path, each with a listener and consumers of its own.  When
the node gets data, each consumer of each of these keys is told once, and no other consumer is.

* `mem_told_deliveries`, `Orderly.nodup_told_deliveries`: who is told of new data, and that nobody
  is told twice under a key.
* `Covered`: as long as no request fails, a key with consumers is watched, or a call is about to
  watch it.
* `fan_out_of_run`: what is heard of a publication after any run.
-/

namespace Discovery.Registry

open Discovery.Tree (Request Reply)

/-! ### Who is told of new data -/

theorem isFor_iff {l : Listener} {id : Nat} {k : String} :
    l.isFor id k = true ↔ ∃ i, l = .forwarder id k i := by
  cases l with
  | named n => exact iff_of_false Bool.false_ne_true fun ⟨_, h⟩ => nomatch h
  | forwarder r a i =>
    rw [show (Listener.forwarder r a i).isFor id k = (r == id && a == k) from rfl,
      Bool.and_eq_true_iff, beq_iff_eq, beq_iff_eq]
    constructor
    · rintro ⟨rfl, rfl⟩
      exact ⟨i, rfl⟩
    · rintro ⟨j, hj⟩
      injection hj with hr ha
      exact ⟨hr, ha⟩

theorem mem_told_iff {k : Core} {l : Listener} {p : String} {bytes : Bytes} {x : Notice} :
    x ∈ k.told ⟨l, .changed p bytes⟩ ↔ l.isFor k.id x.key = true ∧
      Payload.decode bytes = .ok x.data ∧ x.consumer ∈ k.roster.consumers x.key := by
  rw [isFor_iff]
  unfold Core.told
  cases l with
  | named n => exact iff_of_false List.not_mem_nil fun ⟨⟨_, h⟩, _⟩ => nomatch h
  | forwarder r a i =>
    dsimp only
    constructor
    · intro hx
      split at hx
      · next hr =>
        cases hd : Payload.decode bytes with
        | error e =>
          rw [hd] at hx
          exact nomatch hx
        | ok data =>
          rw [hd] at hx
          obtain ⟨c, hc, rfl⟩ := List.mem_map.1 hx
          exact ⟨⟨i, by rw [hr]⟩, rfl, hc⟩
      · exact nomatch hx
    · rintro ⟨⟨j, hj⟩, hd, hc⟩
      injection hj with hr ha
      rw [if_pos hr, hd, ha]
      exact List.mem_map.2 ⟨x.consumer, hc, rfl⟩

theorem told_deleted (k : Core) (l : Listener) (p : String) : k.told ⟨l, .deleted p⟩ = [] := by
  cases l <;> rfl

/-- If a list has at most one element for each index, no two of its elements share an index. -/
theorem pairwise_of_filter {α κ : Type} {f : κ → α → Bool} : ∀ {l : List α},
    (∀ k, (l.filter (f k)).length ≤ 1) →
    l.Pairwise fun a b => ∀ k, f k a = true → f k b = true → False := by
  intro l
  induction l with
  | nil => intro _; exact .nil
  | cons a l ih =>
    intro h
    refine List.pairwise_cons.2 ⟨fun b hb k ha hfb => ?_, ih fun k => ?_⟩
    · have hlen := h k
      rw [List.filter_cons_of_pos ha, List.length_cons] at hlen
      have hpos : 0 < (l.filter (f k)).length :=
        List.length_pos_of_mem (List.mem_filter.2 ⟨hb, hfb⟩)
      omega
    · exact Nat.le_trans ((List.sublist_cons_self a l).filter (f k)).length_le (h k)

namespace Interplay

variable {place : String → String} {s s' : Interplay} {m : Move} {k p : String} {bytes : Bytes}
  {x : Notice}

/-- **Who is told of new data**: the consumers of the keys for which the path is watched. -/
theorem mem_told_deliveries :
    x ∈ (s.server.tree.deliveries p (.changed p bytes)).flatMap s.core.told ↔
      s.watchesFor x.key p ≠ [] ∧ Payload.decode bytes = .ok x.data ∧
        x.consumer ∈ s.consumers x.key := by
  unfold Tree.deliveries
  rw [List.flatMap_map, List.mem_flatMap]
  constructor
  · rintro ⟨w, hw, hx⟩
    obtain ⟨hf, hrest⟩ := mem_told_iff.1 hx
    exact ⟨List.ne_nil_of_mem (List.mem_filter.2 ⟨hw, hf⟩), hrest⟩
  · rintro ⟨hne, hrest⟩
    obtain ⟨w, hw⟩ := List.exists_mem_of_ne_nil _ hne
    obtain ⟨hw, hf⟩ := List.mem_filter.1 hw
    exact ⟨w, hw, mem_told_iff.2 ⟨hf, hrest⟩⟩

/-- **Nobody is told twice under a key.** -/
theorem Orderly.nodup_told_deliveries (h : s.Orderly place) (p : String) (bytes : Bytes) :
    ((s.server.tree.deliveries p (.changed p bytes)).flatMap s.core.told).Nodup := by
  unfold Tree.deliveries
  rw [List.flatMap_map, List.nodup_flatMap]
  constructor
  · rintro ⟨t, l⟩ _
    cases l with
    | named n => exact .nil
    | forwarder r a i =>
      unfold Core.told
      dsimp only
      split
      · cases Payload.decode bytes with
        | error e => exact .nil
        | ok data =>
          refine (h.nodup a).map fun c c' hcc => ?_
          injection hcc
      · exact .nil
  · have hone : ∀ k, ((s.server.tree.watchesAt p).filter
        (·.listener.isFor s.core.id k)).length ≤ 1 := by
      intro k
      rcases h.watched k p with hnil | ⟨_, i, hi, _⟩
      · exact (congrArg List.length hnil).trans_le (Nat.zero_le 1)
      · exact (congrArg List.length hi).le
    refine (pairwise_of_filter hone).imp fun {a b} hab => ?_
    rintro x hxa hxb
    exact hab x.key (mem_told_iff.1 hxa).1 (mem_told_iff.1 hxb).1

/-! ### Keys with consumers are watched -/

/-- A key with consumers is watched, or a call is about to watch it. -/
def Covered (place : String → String) (s : Interplay) : Prop :=
  ∀ k, s.consumers k ≠ [] →
    s.watchesFor k (place k) ≠ [] ∨ ∃ n v l, s.calls n = some (.watch v l) ∧ v.key = k

/-- A key with consumers is still covered if it had some before and no watch call on it has come
to its end. -/
theorem Orderly.covered_of_calls (h : s.Orderly place) (he : Effect place s m s')
    (hcov : s.Covered place) (hk : s.consumers k ≠ [])
    (hcalls : ∀ n v l, s.calls n = some (.watch v l) → v.key = k →
      s'.calls n = some (.watch v l)) :
    s'.watchesFor k (place k) ≠ [] ∨ ∃ n v l, s'.calls n = some (.watch v l) ∧ v.key = k := by
  rcases hcov k hk with hw | ⟨n, v, l, hn, hv⟩
  · rcases h.watchesFor_effect he hk with hw' | hw'
    · exact .inl (hw' (place k) ▸ hw)
    · exact .inl hw'
  · exact .inr ⟨n, v, l, hcalls n v l hn hv, hv⟩

theorem watching_update {n : Nat} {d : Option Nodes.Call}
    (hn : ∀ v l, s.calls n ≠ some (.watch v l)) (n' : Nat) (v : Visit) (l : Listener)
    (hw : s.calls n' = some (.watch v l)) :
    Function.update s.calls n d n' = some (.watch v l) := by
  have hne : n' ≠ n := by
    rintro rfl
    exact hn v l hw
  exact (Function.update_of_ne hne _ _).trans hw

/-- **A move that is not a failure keeps all keys covered.** -/
theorem Orderly.covered_effect (h : s.Orderly place) (hcov : s.Covered place)
    (he : Effect place s m s') (hm : ∀ n why, m ≠ .fail n why) : s'.Covered place := by
  have hnot : ∀ {n : Nat} {c : Nodes.Call}, s.calls n = some c → (∀ v l, c ≠ .watch v l) →
      ∀ v l, s.calls n ≠ some (.watch v l) :=
    fun hc hne v l hw => hne v l (Option.some.inj (hc.symm.trans hw))
  intro k hk
  have hkeep := h.covered_of_calls (k := k) he hcov
  cases he with
  | beside hb =>
    rw [hb.consumers] at hk
    exact hkeep hk fun n v l hw _ => (hb.calls n _ v rfl).2 hw
  | lineIn hfree | lineOut hfree =>
    have hn : ∀ v l, s.calls _ ≠ some (.watch v l) := fun v l hw => nomatch hfree.symm.trans hw
    exact hkeep hk fun n v l hw _ => watching_update hn n v l hw
  | look => exact hkeep hk fun n v l hw _ => hw
  | @enter n v hc hh =>
    by_cases hkv : k = v.key
    · -- the call that comes in is about to watch its key
      exact .inr ⟨n, v, _, Function.update_self _ _ _, hkv.symm⟩
    · rw [consumers_enter, if_neg hkv] at hk
      have hn := hnot hc fun _ _ hl => nomatch hl
      exact hkeep hk fun n' v' l hw _ => watching_update hn n' v' l hw
  | @enterOut n v hc hh =>
    rw [consumers_enterOut, consumers_detached] at hk
    have hn := hnot hc fun _ _ hl => nomatch hl
    refine hkeep (fun hnil => hk ?_) fun n' v' l hw _ => watching_update hn n' v' l hw
    split
    · next hkv =>
      subst hkv
      exact (congrArg _ hnil).trans List.filter_nil
    · exact hnil
  | @watch n v l hc =>
    by_cases hkv : k = v.key
    · subst hkv
      refine .inl ?_
      rw [h.watchesFor_watch hc, if_pos ⟨rfl, rfl⟩]
      exact List.cons_ne_nil _ _
    · refine hkeep hk fun n' v' l' hw hv => ?_
      have hn : n' ≠ n := by
        rintro rfl
        obtain ⟨rfl, _⟩ := Nodes.Call.watch.inj (Option.some.inj (hc.symm.trans hw))
        exact hkv hv.symm
      exact (Function.update_of_ne hn _ _).trans hw
  | find hc | miss hc | hand hc | unwatch hc =>
    have hn := hnot hc fun _ _ hl => nomatch hl
    exact hkeep hk fun n v l hw _ => watching_update hn n v l hw
  | broken => exact absurd rfl (hm _ _)

theorem Orderly.covered_run (h : s.Orderly place) (hcov : s.Covered place) {ms : List Move}
    (hms : ∀ m ∈ ms, m.Placed place) (hfail : ∀ n why, .fail n why ∉ ms)
    (hs : s.run ms = some s') : s'.Covered place := by
  have hstep : ∀ {t t' : Interplay} {m : Move},
      t.Orderly place ∧ t.Covered place → True →
      (m.Placed place ∧ ∀ n why, m ≠ .fail n why) → t.step m = some t' →
      t'.Orderly place ∧ t'.Covered place := by
    rintro t t' m ⟨ht, hc⟩ _ ⟨hm, hworks⟩ hst
    exact ⟨ht.step hm hst, ht.covered_effect hc (ht.step_effect hm hst) hworks⟩
  refine ((throughout_true ms s).keeps hstep ⟨h, hcov⟩ (fun m hm => ⟨hms m hm, ?_⟩) hs).2
  rintro n why rfl
  exact hfail n why hm

theorem covered_begin {conduct : Conduct} {v : Tree.Server} {id : Nat} {session : Tree.SessionId} :
    (begin conduct v id session).Covered place :=
  fun _ hk => absurd rfl hk

/-! ### Publications -/

def Publishes (s : Interplay) (p : String) (bytes : Bytes) : Move → Prop
  | .request t q => ((∃ mode, q = .create p bytes mode) ∨ q = .write p bytes) ∧
      (s.server.answer t q).2.1 = .done
  | .write p' bytes' => p' = p ∧ bytes' = bytes ∧ (s.server.write p bytes).2.1 = .done
  | _ => False

theorem heard_ask (s : Interplay) (t : Tree.SessionId) (q : Request) :
    (s.ask t q).1.heard = s.heard ++ (s.server.answer t q).2.2.flatMap s.core.told := by
  obtain ⟨m, hm⟩ := s.told_ask t q
  rw [hm]

/-- **What is heard of a publication**: what the listeners on the path are told. -/
theorem heard_of_publishes (hm : s.Publishes p bytes m) (hs : s.step m = some s') :
    s'.heard = s.heard ++
      (s.server.tree.deliveries p (.changed p bytes)).flatMap s.core.told := by
  cases m with
  | request t q =>
    obtain ⟨hq, hdone⟩ := hm
    obtain ⟨_, hs⟩ := Option.ite_none_left_eq_some.1 hs
    obtain rfl := Option.some.inj hs
    rcases hq with ⟨mode, rfl⟩ | rfl
    · rw [heard_ask, Tree.Server.owed_create hdone]
    · rw [heard_ask, Tree.Server.owed_write hdone]
  | write p' bytes' =>
    obtain ⟨rfl, rfl, hdone⟩ := hm
    have hw : { s with server := (s.server.write p' bytes').1 }.hearAll
        (s.server.write p' bytes').2.2 = s' := Option.some.inj hs
    rw [← hw, Tree.Server.owed_serverWrite hdone]
    obtain ⟨m, hm⟩ := told_hearAll (s.server.tree.deliveries p' (.changed p' bytes'))
      { s with server := (s.server.write p' bytes').1 }
    rw [hm]
  | _ => exact hm.elim

theorem heard_of_delete {t : Tree.SessionId} (hs : s.step (.request t (.delete p)) = some s') :
    s'.heard = s.heard := by
  obtain rfl : (s.ask t (.delete p)).1 = s' := Option.some.inj hs
  rw [heard_ask, List.flatMap_eq_nil_iff.2, List.append_nil]
  rintro ⟨l, e⟩ hd
  obtain ⟨q, rfl⟩ := Tree.Server.owed_delete _ hd
  exact told_deleted _ _ _

/-- **Every consumer is told once, and no other.**  While no call is in progress and no request
has failed: of a publication of data that can be decoded, each consumer of each key whose node is
at the path hears exactly once under that key, with this data, and nobody else hears anything; of
a publication of other data, or a deletion, nobody hears. -/
theorem fan_out_of_run {conduct : Conduct} {v : Tree.Server} {id : Nat} {session : Tree.SessionId}
    {ms : List Move} (hopen : v.isClosed session = false)
    (hnew : ∀ p, ∀ w ∈ v.tree.watchesAt p, w.listener.isOf id = false)
    (hms : ∀ m ∈ ms, m.Placed place) (hfail : ∀ n why, .fail n why ∉ ms)
    (hrun : (begin conduct v id session).run ms = some s) (hidle : ∀ n, s.calls n = none) :
    (∀ m p bytes data s', s.Publishes p bytes m → Payload.decode bytes = .ok data →
      s.step m = some s' → ∃ new, s'.heard = s.heard ++ new ∧ new.Nodup ∧
        ∀ x, x ∈ new ↔ place x.key = p ∧ x.consumer ∈ s.consumers x.key ∧ x.data = data) ∧
    (∀ m p bytes e s', s.Publishes p bytes m → Payload.decode bytes = .error e →
      s.step m = some s' → s'.heard = s.heard) ∧
    ∀ t p s', s.step (.request t (.delete p)) = some s' → s'.heard = s.heard := by
  have h₀ : (begin conduct v id session).Orderly place := orderly_begin hopen hnew
  have h := h₀.run hms hrun
  have hcov := h₀.covered_run covered_begin hms hfail hrun
  refine ⟨fun m p bytes data s' hm hdata hs => ?_, fun m p bytes e s' hm he hs => ?_,
    fun t p s' hs => heard_of_delete hs⟩
  · refine ⟨_, heard_of_publishes hm hs, h.nodup_told_deliveries p bytes, fun x => ?_⟩
    rw [mem_told_deliveries, hdata, Except.ok.injEq]
    constructor
    · rintro ⟨hw, hd, hc⟩
      rcases h.watched x.key p with hnil | ⟨hp, _⟩
      · exact absurd hnil hw
      · exact ⟨hp.symm, hc, hd.symm⟩
    · rintro ⟨rfl, hc, hd⟩
      refine ⟨?_, hd.symm, hc⟩
      rcases hcov x.key (List.ne_nil_of_mem hc) with hw | ⟨n, v, l, hn, _⟩
      · exact hw
      · exact nomatch (hidle n).symm.trans hn
  · have hnil : (s.server.tree.deliveries p (.changed p bytes)).flatMap s.core.told = [] := by
      refine List.eq_nil_iff_forall_not_mem.2 fun x hx => ?_
      exact nomatch he.symm.trans (mem_told_deliveries.1 hx).2.1
    rw [heard_of_publishes hm hs, hnil, List.append_nil]

def branch : Endpoint := ⟨"g", 1, ["a"], ∅⟩

/-- Two consumers subscribe to one endpoint, and one of them to another endpoint as well. -/
def threeSubscriptions : List Move :=
  [.connect, .start 0 (.subscribe shop "c"), .go 0, .go 0, .start 1 (.subscribe branch "c"), .go 0,
    .go 1, .start 2 (.subscribe shop "d"), .go 2, .go 1, .go 2, .go 1, .go 2]

/-- The consumers of both endpoints are told that their node is there, the one that has subscribed
to both of them once under each key. -/
theorem fan_out_of_threeSubscriptions : ∃ s s' new, fresh.run threeSubscriptions = some s ∧
    s.step (.request 2 (.create "/a" [] .ephemeral)) = some s' ∧ s'.heard = s.heard ++ new ∧
      new.Perm [⟨"zookeeper://h:1/a", "c", ∅⟩, ⟨"zookeeper://h:1/a", "d", ∅⟩,
        ⟨"zookeeper://g:1/a", "c", ∅⟩] := by
  obtain ⟨s, hs, hcalls, hattached, s', hs', hm⟩ : ∃ s,
      fresh.run threeSubscriptions = some s ∧ (∀ n, s.calls n = none) ∧
      s.core.roster.attached.entries =
        [("zookeeper://g:1/a", ["c"]), ("zookeeper://h:1/a", ["c", "d"])] ∧
      ∃ s', s.step (.request 2 (.create "/a" [] .ephemeral)) = some s' ∧
        s.Publishes "/a" [] (.request 2 (.create "/a" [] .ephemeral)) := by
    refine ⟨_, rfl, fun n => ?_, by decide +kernel, _, rfl, .inl ⟨_, rfl⟩, by decide⟩
    rcases n with _ | _ | _ | n <;> rfl
  have hms : ∀ m ∈ threeSubscriptions, m.Placed fun _ => "/a" := placed_of_all (by decide)
  obtain ⟨new, hheard, hnodup, hnew⟩ :=
    (fan_out_of_run rfl (fun p w hw => absurd hw List.not_mem_nil) hms
      (fun n why hm => by simp [threeSubscriptions] at hm) hs hcalls).1 _ "/a" [] ∅ s' hm rfl hs'
  refine ⟨s, s', new, hs, hs', hheard,
    (List.perm_ext_iff_of_nodup hnodup (by decide)).2 fun ⟨k, c, data⟩ => ?_⟩
  have hconsumers : s.consumers k =
      (List.lookup k [("zookeeper://g:1/a", ["c"]), ("zookeeper://h:1/a", ["c", "d"])]).getD [] :=
    congrArg (fun es : List (String × List Consumer) => (es.lookup k).getD []) hattached
  rw [hnew, hconsumers]
  by_cases hg : k = "zookeeper://g:1/a"
  · subst hg
    simp
  · by_cases hh : k = "zookeeper://h:1/a"
    · subst hh
      simp [List.lookup_cons, or_and_right]
    · simp [List.lookup_cons, beq_eq_false_iff_ne.2 hg, beq_eq_false_iff_ne.2 hh, hg, hh]

end Interplay

end Discovery.Registry
