import Discovery.Proofs.Services.Books
import Discovery.Proofs.Services.Broadcast

/-!
# Telling of each instance

When the instances of a service change, the consumers of its key are told of each instance that
there is now.

* `Attended`: as long as no request fails, the registry keeps a listener for a key with consumers.
* `Orderly.listenersAt_of_idle`: while no call on a key is in progress, this listener is the only
  one of the registry at the service.
* `instances_told_of_run`: what is heard of a change after any run.
-/

namespace Discovery

namespace Registry.Services

open Naming (Directory Event Instance Provider Request)

namespace Interplay

variable {κ ω : Type} {p : Provider κ ω} {s s' : Interplay κ} {m : Move κ ω} {k : String}

/-! ### Keys with consumers have a listener -/

/-- The registry keeps a listener for each key with consumers. -/
def Attended (s : Interplay κ) : Prop :=
  ∀ k, s.consumers k ≠ [] → s.core.hasListener k = true

theorem hasListener_of_get? {c : Core} {i : Nat} (hi : c.listeners.get? k = some i) :
    c.hasListener k = true := by
  unfold Core.hasListener Table.contains
  rw [hi]
  rfl

theorem consumers_of_detached {v : Visit} (hk : (s.detached v).consumers k ≠ []) :
    s.consumers k ≠ [] := by
  intro hnil
  have hcons : (s.detached v).consumers k =
      if k = v.key then (s.consumers v.key).filter (· != v.consumer) else s.consumers k :=
    Roster.consumers_detach _ _ _ _
  by_cases hkv : k = v.key
  · subst hkv
    rw [if_pos rfl, hnil, List.filter_nil] at hcons
    exact hk hcons
  · exact hk (hcons.trans ((if_neg hkv).trans hnil))

/-- **A move that is not a failure** leaves each key with consumers its listener. -/
theorem Attended.effect (h : s.Attended) (he : Effect p s m s')
    (hm : ∀ n why, m ≠ .fail n why) : s'.Attended := by
  cases he with
  | beside hb =>
    obtain ⟨m, hm⟩ := hb.core
    intro k hk
    have hcons : s'.consumers k = s.consumers k := by
      show s'.core.roster.consumers k = _
      rw [hm]
      rfl
    rw [hm]
    exact h k (hcons ▸ hk)
  | line => exact h
  | look => exact h
  | @join n w v m hc hh hl =>
    intro k hk
    by_cases hkv : k = v.key
    · exact hkv ▸ hl
    · exact h k ((consumers_attached_of_ne s hkv) ▸ hk)
  | @make n w v hc hh hl =>
    intro k hk
    by_cases hkv : k = v.key
    · subst hkv
      exact hasListener_of_get? (Table.get?_insert_self _ _ _)
    · have hlist := h k ((consumers_attached_of_ne s hkv) ▸ hk)
      show (Table.get? (Table.insert _ v.key _) k).isSome = true
      rw [Table.get?_insert_of_ne _ _ hkv]
      exact hlist
  | @part n w v m hc hh hl => exact fun k hk => h k (consumers_of_detached hk)
  | @forget n i w v hc hh hnil hi =>
    intro k hk
    have hkv : k ≠ v.key := by
      rintro rfl
      exact hk hnil
    have hlist := h k ((consumers_detached_of_ne s hkv) ▸ hk)
    show (Table.get? (Table.erase _ v.key) k).isSome = true
    rw [Table.get?_erase_of_ne _ hkv]
    exact hlist
  | putUp => exact h
  | takeBack => exact absurd rfl (hm _ _)
  | takeDown => exact h
  | strand => exact absurd rfl (hm _ _)

theorem Effect.lost_eq (he : Effect p s m s') (hm : ∀ n why, m ≠ .fail n why) :
    s'.lost = s.lost := by
  cases he with
  | beside hb => exact hb.lost
  | takeBack => exact absurd rfl (hm _ _)
  | strand => exact absurd rfl (hm _ _)
  | _ => rfl

/-! ### Keys at rest -/

/-- **While no call on a key is in progress**, the listener that the registry keeps for it is the
only one that it has at the service. -/
theorem Orderly.listenersAt_of_idle (h : s.Orderly p) (hlost : s.lost = [])
    (hidle : ∀ n c v, s.calls n = some c → c.visit? = some v → v.key ≠ k) :
    s.listenersAt p k = ((s.core.listeners.get? k).map (s.core.listener k)).toList := by
  have hkept : ∀ l ∈ s.listenersAt p k, ∃ i, l = s.core.listener k i ∧
      s.core.listeners.get? k = some i := by
    intro l hl
    obtain ⟨i, hi, hb⟩ := h.kept_or_lost hidle hl
    exact ⟨i, hi, hb.resolve_right (hlost ▸ List.not_mem_nil)⟩
  cases hget : s.core.listeners.get? k with
  | none =>
    refine List.eq_nil_iff_forall_not_mem.2 fun l hl => ?_
    obtain ⟨i, _, hi⟩ := hkept l hl
    exact nomatch hget.symm.trans hi
  | some i =>
    refine List.perm_singleton.1 ((List.perm_ext_iff_of_nodup (h.settled k).nodup
      (List.nodup_singleton _)).2 fun l => ⟨fun hl => ?_, fun hl => ?_⟩)
    · obtain ⟨j, rfl, hj⟩ := hkept l hl
      obtain rfl := Option.some.inj (hget.symm.trans hj)
      exact List.mem_singleton_self _
    · rw [List.mem_singleton.1 hl]
      exact h.up_of_idle hidle hget

/-! ### Instances name their service -/

theorem client_go {t : Interplay Directory} (n : Nat) (c : Call) :
    (t.go Directory.provider n () c).client = t.client ∨
      ∃ q, (t.go Directory.provider n () c).client = (t.client.answer q).1 := by
  unfold go provide
  cases c.need with
  | turn ticket =>
    refine .inl ?_
    dsimp only
    split
    · next heq => exact congrArg (·.1.client) heq ▸ rfl
    · next heq => exact congrArg (·.1.client) heq ▸ rfl
  | ask q => exact .inr ⟨q, rfl⟩
  | hand key c data => exact .inl rfl

/-- **A move makes a request of the directory**, if anything. -/
theorem client_step {t t' : Interplay Directory} {m : Move Directory Unit}
    (hm : ∀ d, m ≠ .change d) (hs : t.step Directory.provider m = some t') :
    t'.client = t.client ∨ ∃ q, t'.client = (t.client.answer q).1 := by
  cases m with
  | start n a =>
    dsimp only [step] at hs
    cases hn : t.calls n with
    | none =>
      rw [hn] at hs
      exact .inl (Option.some.inj hs ▸ rfl)
    | some c =>
      rw [hn] at hs
      exact nomatch hs
  | go n w =>
    obtain ⟨c, _, rfl⟩ := Option.map_eq_some_iff.1 hs
    exact client_go n c
  | fail n why =>
    dsimp only [step] at hs
    cases hn : t.calls n with
    | none =>
      rw [hn] at hs
      exact nomatch hs
    | some c =>
      rw [hn] at hs
      dsimp only at hs
      split at hs
      · next q _ =>
        have hlose : (t.lose q).client = t.client := by cases q <;> rfl
        exact .inl (Option.some.inj hs ▸ hlose)
      · exact nomatch hs
  | request w q =>
    obtain ⟨_, hs⟩ := Option.ite_none_left_eq_some.1 hs
    exact .inr ⟨q, Option.some.inj hs ▸ rfl⟩
  | change d => exact absurd rfl (hm d)
  | count meter => exact .inl (Option.some.inj hs ▸ rfl)

end Interplay

namespace Broadcast

variable {b b' : Broadcast} {m : Move Directory Unit} {ms : List (Move Directory Unit)}
  {k : String} {e : Event} {q : Request}

/-! ### What a request leads to -/

/-- A move has a request about an instance served: one of a call, or of somebody else. -/
inductive Serves (b : Broadcast) : Move Directory Unit → Request → Prop where
  | call {n : Nat} {c : Call} {q : Request} (hc : b.play.calls n = some c)
      (hq : c.order? = some q) : b.Serves (.go n ()) q
  | other {q : Request} (hq : q.listener? = none) : b.Serves (.request () q) q

/-- **What is heard of a request**: what the listeners of the service are told. -/
theorem exists_served (hm : b.Serves m q) : ∃ b', b.step m = some b' ∧
    b'.play.client = (b.play.client.answer q).1 ∧
      b'.heard = b.heard ++ (b.play.client.answer q).2.flatMap b.told := by
  obtain ⟨meter, hasked⟩ := told_ask b q
  have hplay : (b.ask q).play.client = (b.play.client.answer q).1 := by rw [hasked]
  have hheard : (b.ask q).heard = b.heard ++ (b.play.client.answer q).2.flatMap b.told := by
    rw [hasked]
  cases hm with
  | @call n c q hc hq =>
    refine ⟨b.go n c, ?_, ?_⟩
    · show (b.play.calls n).map _ = _
      rw [hc]
      rfl
    · unfold go
      rw [Interplay.need_of_order hq]
      exact ⟨hplay, hheard⟩
  | other hq =>
    refine ⟨b.ask q, if_neg ?_, hplay, hheard⟩
    rw [hq]
    exact Bool.false_ne_true

theorem flatMap_told_publish (b : Broadcast) (e : Event) :
    (b.play.client.audience.publish e).flatMap b.told =
      (b.play.listenersAt Directory.provider e.service).flatMap fun _ => b.notes e := by
  show ((b.play.client.audience.of e.service).map _).flatMap _ =
    ((b.play.client.audience.of e.service).filter _).flatMap _
  induction b.play.client.audience.of e.service with
  | nil => rfl
  | cons l ls ih =>
    rw [List.map_cons, List.flatMap_cons, ih]
    by_cases hl : l.isOf b.play.core.id = true
    · rw [List.filter_cons_of_pos hl, List.flatMap_cons]
      exact congrArg (· ++ _) (if_pos hl)
    · rw [List.filter_cons_of_neg hl]
      exact congrArg (· ++ _) (if_neg hl)

theorem notes_of_named (he : ∀ i ∈ e.instances, i.service = e.service) :
    b.notes e = e.instances.flatMap fun i => b.notices e.service i.metadata :=
  List.flatMap_congr fun i hi => by rw [he i hi]

/-- A broadcast in which no request has failed so far. -/
structure Unfailed (b : Broadcast) : Prop where
  orderly : b.play.Orderly Directory.provider
  attended : b.play.Attended
  lost : b.play.lost = []
  named : b.play.client.Named

theorem unfailed_begin (conduct : Conduct) {d : Directory} {id : Nat} (hnamed : d.Named)
    (hnew : ∀ k, ∀ l ∈ d.audience.of k, l.isOf id = false) :
    (begin conduct d id).Unfailed :=
  ⟨Interplay.orderly_begin hnew, fun _ hk => absurd rfl hk, rfl, hnamed⟩

/-- **A run without failures** keeps all this. -/
theorem Unfailed.run (h : b.Unfailed) (hfail : ∀ n why, .fail n why ∉ ms)
    (hs : b.run ms = some b') : b'.Unfailed := by
  have hkeeps := run_induction (P := fun s => s.Orderly Directory.provider ∧ s.Attended ∧
    s.lost = [] ∧ s.client.Named) (Q := fun m => ∀ n why, m ≠ .fail n why) (fun _ => nofun)
    ?_ ⟨h.orderly, h.attended, h.lost, h.named⟩ ?_ hs
  · obtain ⟨ho, ha, hl, hn⟩ := hkeeps
    exact ⟨ho, ha, hl, hn⟩
  · rintro s s' m ⟨ho, ha, hl, hn⟩ hm hchange hstep
    have he := Interplay.step_effect hstep
    refine ⟨ho.step hstep, ha.effect he hm, (he.lost_eq hm).trans hl, ?_⟩
    rcases Interplay.client_step hchange hstep with hc | ⟨q, hc⟩
    · rw [hc]
      exact hn
    · rw [hc]
      exact hn.answer q
  · rintro m hm n why rfl
    exact hfail n why hm

/-- **What is heard of instances**: the consumers of the key are told of each. -/
theorem Unfailed.told_publish (h : b.Unfailed) {is : List Instance}
    (his : ∀ i ∈ is, i.service = k)
    (hidle : ∀ n c v, b.play.calls n = some c → c.visit? = some v → v.key ≠ k) :
    (b.play.client.audience.publish ⟨k, is⟩).flatMap b.told =
      is.flatMap fun i => b.notices k i.metadata := by
  rw [flatMap_told_publish, h.orderly.listenersAt_of_idle h.lost hidle]
  cases hget : b.play.core.listeners.get? k with
  | none =>
    -- without a listener there are no consumers
    have hnil : b.consumers k = [] := by
      by_contra hk
      have hlist := h.attended k hk
      unfold Core.hasListener Table.contains at hlist
      rw [hget] at hlist
      exact nomatch hlist
    refine (List.flatMap_eq_nil_iff.2 fun i _ => ?_).symm
    unfold notices
    rw [hnil, List.map_nil]
  | some i =>
    show b.notes ⟨k, is⟩ ++ [] = _
    rw [List.append_nil]
    exact notes_of_named his

/-- **Consumers are told of each instance.**  While no request has failed and no call on a key is in
progress: when an instance is registered at the service of the key, by this registry or by anybody
else, or when a request removes one, each consumer of the key is told of each instance that there is
then, instance by instance and for each in the order in which they subscribed, and nobody else is
told anything.  A request that removes nothing tells nobody. -/
theorem instances_told_of_run {conduct : Conduct} {d : Directory} {id : Nat} (hnamed : d.Named)
    (hnew : ∀ k, ∀ l ∈ d.audience.of k, l.isOf id = false) (hfail : ∀ n why, .fail n why ∉ ms)
    (hrun : (begin conduct d id).run ms = some b)
    (hidle : ∀ n c v, b.play.calls n = some c → c.visit? = some v → v.key ≠ k) :
    (∀ m i, b.Serves m (.register k i) → ∃ b', b.step m = some b' ∧
      b'.heard = b.heard ++ (b'.play.client.instances k).flatMap fun j =>
        (b.consumers k).map fun c => ⟨k, c, j.metadata⟩) ∧
    ∀ m ip port ephemeral, b.Serves m (.deregister k ip port ephemeral) → ∃ b',
      b.step m = some b' ∧
        (b'.play.client.instances k ≠ b.play.client.instances k →
          b'.heard = b.heard ++ (b'.play.client.instances k).flatMap fun j =>
            (b.consumers k).map fun c => ⟨k, c, j.metadata⟩) ∧
        (b'.play.client.instances k = b.play.client.instances k → b'.heard = b.heard) := by
  have h := (unfailed_begin conduct hnamed hnew).run hfail hrun
  refine ⟨fun m i hm => ?_, fun m ip port ephemeral hm => ?_⟩
  · obtain ⟨b', hs, hclient, hheard⟩ := exists_served hm
    refine ⟨b', hs, ?_⟩
    rw [hheard, Directory.owed_register, hclient,
      h.told_publish (h.named.answer _ k) hidle]
    rfl
  · obtain ⟨b', hs, hclient, hheard⟩ := exists_served hm
    refine ⟨b', hs, fun hne => ?_, fun heq => ?_⟩
    · rw [hclient] at hne ⊢
      rw [hheard, Directory.owed_deregister, if_neg hne, h.told_publish (h.named.answer _ k) hidle]
      rfl
    · rw [hclient] at heq
      rw [hheard, Directory.owed_deregister, if_pos heq, List.flatMap_nil, List.append_nil]

/-- Two consumers subscribe, and somebody else registers an instance. -/
def twoSubscribers : List (Move Directory Unit) :=
  [.start 0 (.subscribe Interplay.shop "c"), .go 0 (), .go 0 (),
    .start 1 (.subscribe Interplay.shop "d"), .go 1 (),
    .request () (.register "nacos://h:1/a" (.ofAddress "10.0.0.1" 80))]

theorem instances_told_of_twoSubscribers : ∃ b b',
    (begin (fun _ _ _ => .completed) ∅ 7).run twoSubscribers = some b ∧
      b.consumers "nacos://h:1/a" = ["c", "d"] ∧
      b.step (.request () (.register "nacos://h:1/a" (.ofAddress "10.0.0.2" 80))) = some b' ∧
      (b'.play.client.instances "nacos://h:1/a").length = 2 ∧
      b'.heard = b.heard ++ (b'.play.client.instances "nacos://h:1/a").flatMap fun j =>
        ["c", "d"].map fun c => ⟨"nacos://h:1/a", c, j.metadata⟩ := by
  obtain ⟨b, hb, hcalls, hcons, hlen⟩ : ∃ b,
      (begin (fun _ _ _ => .completed) ∅ 7).run twoSubscribers = some b ∧
        (∀ n, b.play.calls n = none) ∧ b.consumers "nacos://h:1/a" = ["c", "d"] ∧
        ∀ b', b.step (.request () (.register "nacos://h:1/a" (.ofAddress "10.0.0.2" 80))) =
            some b' → (b'.play.client.instances "nacos://h:1/a").length = 2 := by
    refine ⟨_, rfl, fun n => ?_, by decide, fun b' hs => ?_⟩
    · rcases n with _ | _ | n <;> rfl
    · obtain rfl := Option.some.inj hs
      decide
  have hfail : ∀ n why, (.fail n why : Move Directory Unit) ∉ twoSubscribers := by
    intro n why hm
    simp [twoSubscribers] at hm
  obtain ⟨b', hs, hheard⟩ := (instances_told_of_run (k := "nacos://h:1/a") Directory.named_empty
    (fun k l hl => absurd hl List.not_mem_nil) hfail hb
    fun n c v hn => (nomatch (hcalls n).symm.trans hn)).1 _ (.ofAddress "10.0.0.2" 80) (.other rfl)
  rw [hcons] at hheard
  exact ⟨b, b', hb, hcons, hs, hlen b' hs, hheard⟩

end Broadcast

end Registry.Services

end Discovery
