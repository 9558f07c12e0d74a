import Discovery.Proofs.Registry.Moves

/-!
# One watch for each key

While no call on a key is in progress, the tree holds at most one watch of the registry for the
key, and none if the key has no consumers.  A watch may be missing for a key with consumers, since
the request that was to put it there may have failed; but once such a request has succeeded, the
watch stays as long as the key has consumers.

A consumer may act when it is told something.  What it does then are moves like any others, and
since telling changes neither keys nor watches, it makes no difference here whether these moves
come before the telling or after it.

* `Orderly.watchesOf_eq`: the watches for a key are those at its place.
* `Orderly.watchesFor_effect`: no move takes a watch away from a key with consumers.
* `one_watch_of_run`: what can be said of the listener and the watches of a key after any run.
-/

namespace Discovery

theorem Table.flatMap_entries {α β : Type} {t : Table α} {k : String} {f : String × α → List β}
    (h : ∀ e ∈ t.entries, e.1 ≠ k → f e = []) :
    t.entries.flatMap f = (t.get? k).elim [] fun a => f (k, a) := by
  obtain ⟨l, hl⟩ := t
  show l.flatMap f = (l.lookup k).elim [] fun a => f (k, a)
  change ∀ e ∈ l, e.1 ≠ k → f e = [] at h
  induction l with
  | nil => rfl
  | cons e r ih =>
    obtain ⟨he, hr⟩ := List.pairwise_cons.1 hl
    obtain ⟨a, b⟩ := e
    rw [List.flatMap_cons, List.lookup_cons]
    by_cases hk : k = a
    · subst hk
      have hnil : r.flatMap f = [] := by
        refine List.flatMap_eq_nil_iff.2 fun x hx => h x (List.mem_cons_of_mem _ hx) ?_
        rintro rfl
        exact String.lt_irrefl _ (he x hx)
      rw [hnil, List.append_nil, beq_self_eq_true]
      rfl
    · rw [h (a, b) List.mem_cons_self (Ne.symm hk), List.nil_append, beq_eq_false_iff_ne.2 hk]
      exact ih hr fun x hx => h x (List.mem_cons_of_mem _ hx)

end Discovery

namespace Discovery.Registry

namespace Interplay

variable {place : String → String} {s s' : Interplay} {m : Move} {k : String}

/-! ### The watches for a key -/

/-- The watches of the registry for a key, with the paths on which they are. -/
def watchesOf (s : Interplay) (k : String) : List (String × Tree.Watch) :=
  s.server.tree.watches.entries.flatMap fun e =>
    (e.2.filter (·.listener.isFor s.core.id k)).map fun w => (e.1, w)

theorem watchesOf_eq_of_placed {q : String} (h : ∀ p, p ≠ q → s.watchesFor k p = []) :
    s.watchesOf k = (s.watchesFor k q).map fun w => (q, w) := by
  unfold watchesOf
  rw [Table.flatMap_entries (k := q)]
  · unfold watchesFor Tree.watchesAt Table.getD
    cases s.server.tree.watches.get? q <;> rfl
  · intro e he hk
    have hget := Table.mem_entries_iff.1 (show (e.1, e.2) ∈ _ from he)
    have hat : s.watchesFor k e.1 = e.2.filter (·.listener.isFor s.core.id k) := by
      unfold watchesFor Tree.watchesAt Table.getD
      rw [hget]
      rfl
    rw [← hat, h e.1 hk]
    rfl

/-- **The watches for a key are those at its place.** -/
theorem Orderly.watchesOf_eq (h : s.Orderly place) (k : String) :
    s.watchesOf k = (s.watchesFor k (place k)).map fun w => (place k, w) :=
  watchesOf_eq_of_placed fun p hp => (h.watched k p).resolve_right fun hw => hp hw.1

theorem watchesFor_letIn (s : Interplay) (n : Nat) (c : Nodes.Call) (k p : String) :
    (s.letIn n c).watchesFor k p = s.watchesFor k p := by
  have hid : (s.letIn n c).core.id = s.core.id := Nodes.id_admitted s.registry c
  exact watchesFor_congr hid rfl k

/-- **No move takes a watch away from a key with consumers**: the watches for the key stay, or the
key is watched at its place. -/
theorem Orderly.watchesFor_effect (h : s.Orderly place) (he : Effect place s m s')
    (hk : s.consumers k ≠ []) :
    (∀ p, s'.watchesFor k p = s.watchesFor k p) ∨ s'.watchesFor k (place k) ≠ [] := by
  cases he with
  | beside hb => exact .inl (hb.watches k)
  | enter hc hh => exact .inl fun p => watchesFor_letIn _ _ _ k p
  | enterOut hc hh => exact .inl fun p => watchesFor_letIn _ _ _ k p
  | @watch n v l hc =>
    by_cases hkv : k = v.key
    · subst hkv
      refine .inr ?_
      rw [h.watchesFor_watch hc, if_pos ⟨rfl, rfl⟩]
      exact List.cons_ne_nil _ _
    · exact .inl fun p => (h.watchesFor_watch hc k p).trans (if_neg fun hn => hkv hn.1)
  | @unwatch n v l m hc =>
    -- the key of the call has no consumers any more
    have hkv : k ≠ v.key := by
      rintro rfl
      exact hk (h.visiting n _ v hc rfl).phase.1
    exact .inl fun p => (h.watchesFor_unwatch hc k p).trans (if_neg hkv)
  | _ => exact .inl fun p => rfl

/-! ### Runs -/

theorem Effect.registry (he : Effect place s m s') :
    s'.core.id = s.core.id ∧ s'.registry.session = s.registry.session := by
  cases he with
  | beside hb =>
    obtain ⟨m, hm⟩ := hb.registry
    rw [core, hm]
    exact ⟨rfl, rfl⟩
  | @enter n v _ _ => exact ⟨Nodes.id_admitted (s.look v.ticket).registry (.enter v), rfl⟩
  | @enterOut n v _ _ =>
    refine ⟨Nodes.id_admitted (s.look v.ticket).registry (.enterOut v), ?_⟩
    unfold letIn Nodes.admitted Core.forgetListener
    dsimp only
    split
    · rfl
    · cases ((s.look v.ticket).core.detach v).listeners.get? v.key <;> rfl
  | _ => exact ⟨rfl, rfl⟩

theorem Orderly.registry_run (h : s.Orderly place) {ms : List Move}
    (hms : ∀ m ∈ ms, m.Placed place) (hs : s.run ms = some s') :
    s'.core.id = s.core.id ∧ s'.registry.session = s.registry.session := by
  have hstep : ∀ {t t' : Interplay} {m : Move},
      t.Orderly place ∧ t.core.id = s.core.id ∧ t.registry.session = s.registry.session →
      True → m.Placed place → t.step m = some t' →
      t'.Orderly place ∧ t'.core.id = s.core.id ∧ t'.registry.session = s.registry.session := by
    rintro t t' m ⟨ht, hid, hsession⟩ _ hm hst
    obtain ⟨hid', hsession'⟩ := (ht.step_effect hm hst).registry
    exact ⟨ht.step hm hst, hid'.trans hid, hsession'.trans hsession⟩
  exact ((throughout_true ms s).keeps hstep ⟨h, rfl, rfl⟩ hms hs).2

theorem Orderly.watchesFor_run (h : s.Orderly place) {ms : List Move}
    (hms : ∀ m ∈ ms, m.Placed place) (hs : s.run ms = some s')
    (hk : Throughout Interplay.step (fun t => t.consumers k ≠ []) s ms)
    (hw : s.watchesFor k (place k) ≠ []) : s'.watchesFor k (place k) ≠ [] := by
  have hstep : ∀ {t t' : Interplay} {m : Move},
      t.Orderly place ∧ t.watchesFor k (place k) ≠ [] → t.consumers k ≠ [] →
      m.Placed place → t.step m = some t' →
      t'.Orderly place ∧ t'.watchesFor k (place k) ≠ [] := by
    rintro t t' m ⟨ht, hw⟩ hne hm hst
    refine ⟨ht.step hm hst, ?_⟩
    rcases ht.watchesFor_effect (ht.step_effect hm hst) hne with hw' | hw'
    · rw [hw']
      exact hw
    · exact hw'
  exact (hk.keeps hstep ⟨h, hw⟩ hms hs).2

/-- In a run a watch call for a key gets what it needs, and the key has had consumers since. -/
def Secured (s : Interplay) (k : String) (ms : List Move) : Prop :=
  ∃ before n after u v l w, ms = before ++ .go n :: after ∧ s.run before = some u ∧
    u.calls n = some (.watch v l) ∧ v.key = k ∧ u.step (.go n) = some w ∧
    Throughout step (fun t => t.consumers k ≠ []) w after

theorem Orderly.watchesFor_of_secured (h : s.Orderly place) {ms : List Move}
    (hms : ∀ m ∈ ms, m.Placed place) (hs : s.run ms = some s') (hk : s.Secured k ms) :
    s'.watchesFor k (place k) ≠ [] := by
  obtain ⟨before, n, after, u, v, l, w, rfl, hu, hc, rfl, hw, hsince⟩ := hk
  rw [run_append, hu] at hs
  change u.run (.go n :: after) = some s' at hs
  rw [run_cons, hw] at hs
  have hu' := h.run (fun m hm => hms m (List.mem_append_left _ hm)) hu
  have hgo : u.step (.go n) = some (u.watch n v l) := by
    show (u.calls n).map (u.go n) = _
    rw [hc, Option.map_some, hu'.go_watch]
  obtain rfl := Option.some.inj (hgo.symm.trans hw)
  refine (hu'.watch hc).watchesFor_run
    (fun m hm => hms m (List.mem_append_right _ (List.mem_cons_of_mem _ hm))) hs hsince ?_
  rw [hu'.watchesFor_watch hc, if_pos ⟨rfl, rfl⟩]
  exact List.cons_ne_nil _ _

/-- **One watch for each key.**  However calls interleave, while none is in progress on a key: the
key has a listener if and only if it has consumers; the tree holds at most one watch for it, and
none if it has no consumers; and once a watch call has succeeded, it holds exactly one as long as
the key has consumers, at the place of the key. -/
theorem one_watch_of_run {conduct : Conduct} {v : Tree.Server} {id : Nat}
    {session : Tree.SessionId} {ms : List Move} (hopen : v.isClosed session = false)
    (hnew : ∀ p, ∀ w ∈ v.tree.watchesAt p, w.listener.isOf id = false)
    (hms : ∀ m ∈ ms, m.Placed place) (hrun : (begin conduct v id session).run ms = some s)
    (hidle : ∀ n c v, s.calls n = some c → c.visit? = some v → v.key ≠ k) :
    (s.core.hasListener k = true ↔ 0 < s.core.roster.count k) ∧
      (s.watchesOf k).length ≤ 1 ∧
      (s.core.roster.count k = 0 → s.watchesOf k = []) ∧
      ((begin conduct v id session).Secured k ms → ∃ i, s.core.listeners.get? k = some i ∧
        s.watchesOf k = [(place k, ⟨session, .forwarder id k i⟩)]) := by
  have h₀ : (begin conduct v id session).Orderly place := orderly_begin hopen hnew
  have h := h₀.run hms hrun
  obtain ⟨hid, hsession⟩ := h₀.registry_run hms hrun
  have hbacked : ∀ i, s.Backed k i → s.core.listeners.get? k = some i := by
    rintro i (hi | ⟨n, w, hn⟩)
    · exact hi
    · exact absurd (h.key_of_unwatch hn) (hidle n _ w hn rfl)
  have hlisted : s.core.hasListener k = true ↔ 0 < s.core.roster.count k := by
    rw [h.listed, Nat.pos_iff_ne_zero, Ne, Ne, count_eq_zero_iff]
  rw [h.watchesOf_eq]
  refine ⟨hlisted, ?_, fun hzero => ?_, fun hsec => ?_⟩
  · rcases h.watched k (place k) with hnil | ⟨_, i, hi, _⟩
    · rw [hnil]
      exact Nat.zero_le 1
    · rw [hi]
      exact Nat.le_refl 1
  · rcases h.watched k (place k) with hnil | ⟨_, i, _, hb⟩
    · rw [hnil]
      rfl
    · -- a watch is there for a listener, and a key with a listener has consumers
      have hpos := hlisted.1 ((hasListener_iff _ k).2 ⟨i, hbacked i hb⟩)
      exact absurd hzero (Nat.pos_iff_ne_zero.1 hpos)
  · rcases h.watched k (place k) with hnil | ⟨_, i, hi, hb⟩
    · exact absurd hnil (h₀.watchesFor_of_secured hms hrun hsec)
    · refine ⟨i, hbacked i hb, ?_⟩
      rw [hi, hsession]
      unfold Core.listener
      rw [hid]
      rfl

def shop : Endpoint := ⟨"h", 1, ["a"], ∅⟩

def fresh : Interplay :=
  begin (fun _ _ _ => .completed) ⟨∅, 1, []⟩ 7 1

theorem placed_of_all {q : String} {ms : List Move}
    (h : (ms.all fun
      | .start _ a => a.endpoint.path.toOption == some q
      | _ => true) = true) : ∀ m ∈ ms, m.Placed fun _ => q := by
  intro m hm
  have hq := List.all_eq_true.1 h m hm
  cases m with
  | start n a =>
    intro k p _ hp
    dsimp only at hq
    rw [hp] at hq
    exact Option.some.inj (eq_of_beq hq)
  | _ => trivial

/-- A consumer subscribes, but the watch request fails; it subscribes again. -/
def retry : List Move :=
  [.start 0 (.subscribe shop "c"), .go 0, .fail 0 (.connection "down"),
    .start 0 (.subscribe shop "c"), .go 0, .go 0, .go 0]

theorem one_watch_of_retry : ∃ s, fresh.run retry = some s ∧
    ∃ i, s.core.listeners.get? "zookeeper://h:1/a" = some i ∧
      s.watchesOf "zookeeper://h:1/a" = [("/a", ⟨1, .forwarder 7 "zookeeper://h:1/a" i⟩)] := by
  obtain ⟨s, hs, hcalls⟩ : ∃ s, fresh.run retry = some s ∧ ∀ n, s.calls n = none := by
    refine ⟨_, rfl, fun n => ?_⟩
    cases n <;> rfl
  refine ⟨s, hs, ?_⟩
  have hms : ∀ m ∈ retry, m.Placed fun _ => "/a" := placed_of_all (by decide)
  have hsecured : fresh.Secured "zookeeper://h:1/a" retry := by
    refine ⟨retry.take 5, 0, [.go 0], _, _, _, _, rfl, rfl, rfl, by decide, rfl, by decide, ?_⟩
    rintro t ht
    obtain rfl := Option.some.inj ht
    show _ ≠ _
    decide
  exact (one_watch_of_run rfl (fun p w hw => absurd hw List.not_mem_nil) hms hs
    fun n c v hn => nomatch (hcalls n).symm.trans hn).2.2.2 hsecured

end Interplay

end Discovery.Registry
