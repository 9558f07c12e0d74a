import Discovery.Proofs.Tree.Answer
import Discovery.Proofs.Tree.Reach
import Mathlib.Data.List.Count
import Mathlib.Data.List.Nodup

/-!
# Whom an act owes a call

An act that creates, writes or deletes a node owes a call to each listener that watches the path,
and an act that ends a session owes these calls for each node that goes with it, but not to those
who watch through that session.  Nobody is owed a call twice for one act.

* `Server.Does`: what an act does, as an event.  A session that ends deletes the nodes that are gone
  afterwards (`does_close_iff`).
* `Server.Owes`: the listeners that are to be told of it.
* `count_act`: an act owes exactly these calls, each of them once.
-/

namespace Discovery.Tree

variable {t : Tree} {p : String} {e e' : Event} {l : Listener}

/-! ### Trees whose nodes hang together, whoever is alive -/

/-- A tree is sound, whether or not those are alive who own its nodes or watch its paths. -/
abbrev Holds (t : Tree) : Prop :=
  t.Sound fun _ => True

theorem holds_commit {v : Server} {r : Except Failure (Tree × List Delivery)} (h : v.tree.Holds)
    (hr : ∀ t ds, r = .ok (t, ds) → t.Holds) : (v.commit r).1.tree.Holds := by
  cases r with
  | error e => exact h
  | ok x => exact hr x.1 x.2 rfl

theorem holds_answer {v : Server} (h : v.tree.Holds) (s : SessionId) (q : Request) :
    (v.answer s q).1.tree.Holds := by
  unfold Server.answer
  split
  · exact h
  · cases q with
    | check p => exact h
    | create p data mode => exact holds_commit h fun t ds hc => h.create trivial hc
    | delete p => exact holds_commit h fun t ds hd => h.delete hd
    | read p => exact h
    | write p data => exact holds_commit h fun t ds hw => h.write hw
    | watch p l => exact h.watch trivial
    | unwatch p l => exact h.unwatch

/-- **Each act keeps a tree sound**, whatever sessions it is made through. -/
theorem holds_act {v : Server} (h : v.tree.Holds) (a : Server.Act) : (v.act a).1.tree.Holds := by
  cases a with
  | connect => exact h
  | request s q => exact holds_answer h s q
  | write p data => exact holds_commit h fun t ds hw => h.write hw
  | close s =>
    by_cases hc : v.isClosed s
    · simpa [Server.act, Server.close, hc] using h
    · have he := h.expire (s := s)
      simp only [Server.act, Server.close, hc, Bool.false_eq_true, if_false]
      exact ⟨he.nodes.mono fun _ _ _ _ _ => trivial, he.watches.mono fun _ _ _ _ _ => trivial⟩
  | clearHistory => exact ⟨h.nodes, h.watches⟩

/-! ### The calls for one event -/

theorem count_map_watches {ws : List Watch} (hnd : (ws.map (·.listener)).Nodup) :
    (ws.map fun w => (⟨w.listener, e⟩ : Delivery)).count ⟨l, e'⟩ =
      if e' = e ∧ l ∈ ws.map (·.listener) then 1 else 0 := by
  by_cases he : e' = e
  · subst he
    have hinj : Function.Injective fun l : Listener => (⟨l, e'⟩ : Delivery) := by
      intro l l' hll
      exact (Delivery.mk.inj hll).1
    have hmap : (ws.map fun w => (⟨w.listener, e'⟩ : Delivery)) =
        (ws.map (·.listener)).map fun l => (⟨l, e'⟩ : Delivery) := by
      rw [List.map_map]
      rfl
    rw [hmap, List.count_map_of_injective _ _ hinj]
    by_cases hl : l ∈ ws.map (·.listener)
    · rw [if_pos ⟨rfl, hl⟩]
      exact List.count_eq_one_of_mem hnd hl
    · rw [if_neg fun h => hl h.2]
      exact List.count_eq_zero_of_not_mem hl
  · rw [if_neg fun h => he h.1]
    refine List.count_eq_zero_of_not_mem fun hmem => ?_
    obtain ⟨w, _, hw⟩ := List.mem_map.1 hmem
    exact he (Delivery.mk.inj hw).2.symm

theorem count_deliveries (h : t.Holds) : (t.deliveries p e).count ⟨l, e'⟩ =
    if e' = e ∧ l ∈ (t.watchesAt p).map (·.listener) then 1 else 0 :=
  count_map_watches (h.watchesAt p).1

/-- **The nodes of a session go one and all**, and for each of them its watches are owed a call. -/
theorem deliveries_deleteAll {s : SessionId} (ps : List String) {t : Tree}
    (h : NodesSound (fun _ => True) t.nodes) (hnd : ps.Nodup)
    (hown : ∀ p ∈ ps, ∃ n, t.nodes.get? p = some n ∧ n.owner = some s) :
    (t.deleteAll ps).2 = ps.flatMap fun p => t.deliveries p (.deleted p) := by
  rw [deleteAll_eq_of_owned ps h hnd hown]

theorem count_flatMap_deliveries (h : t.Holds) : ∀ {ps : List String}, ps.Nodup →
    (ps.flatMap fun p => t.deliveries p (.deleted p)).count ⟨l, e⟩ =
      if ∃ p ∈ ps, e = .deleted p ∧ l ∈ (t.watchesAt p).map (·.listener) then 1 else 0 := by
  intro ps
  induction ps with
  | nil => intro _; simp
  | cons p ps ih =>
    intro hnd
    obtain ⟨hp, hnd⟩ := List.nodup_cons.1 hnd
    rw [List.flatMap_cons, List.count_append, ih hnd, count_deliveries h]
    by_cases hhere : e = .deleted p ∧ l ∈ (t.watchesAt p).map (·.listener)
    · have hrest : ¬ ∃ q ∈ ps, e = .deleted q ∧ l ∈ (t.watchesAt q).map (·.listener) := by
        rintro ⟨q, hq, heq, _⟩
        obtain rfl : p = q := Event.deleted.inj (hhere.1.symm.trans heq)
        exact hp hq
      rw [if_pos hhere, if_neg hrest, if_pos ⟨p, List.mem_cons_self, hhere⟩]
    · rw [if_neg hhere, Nat.zero_add]
      refine if_congr ?_ rfl rfl
      simp only [List.mem_cons, exists_eq_or_imp, hhere, false_or]

/-! ### What an act owes -/

def Event.path : Event → String
  | .changed p _ | .deleted p => p

namespace Server

variable {v : Server} {s : SessionId} {data : Bytes} {mode : Mode} {a : Act}

/-- **What an act does**: a node is created or written with some data, or deleted; and a session
that ends takes its nodes with it. -/
inductive Does (v : Server) : Act → Event → Prop
  | created {s : SessionId} {p : String} {data : Bytes} {mode : Mode}
      (done : (v.answer s (.create p data mode)).2.1 = .done) :
      Does v (.request s (.create p data mode)) (.changed p data)
  | written {s : SessionId} {p : String} {data : Bytes}
      (done : (v.answer s (.write p data)).2.1 = .done) :
      Does v (.request s (.write p data)) (.changed p data)
  | writtenByServer {p : String} {data : Bytes} (done : (v.write p data).2.1 = .done) :
      Does v (.write p data) (.changed p data)
  | deleted {s : SessionId} {p : String} (done : (v.answer s (.delete p)).2.1 = .done) :
      Does v (.request s (.delete p)) (.deleted p)
  | ended {s : SessionId} {p : String} {n : Node} (isOpen : v.isClosed s = false)
      (there : v.tree.nodes.get? p = some n) (owner : n.owner = some s) :
      Does v (.close s) (.deleted p)

/-- What a session does that ends: it deletes the nodes that are gone afterwards. -/
theorem does_close_iff (h : v.tree.Holds) : v.Does (.close s) (.deleted p) ↔
    v.tree.data? p ≠ none ∧ (v.close s).1.tree.data? p = none := by
  have hdata : ∀ t : Tree, t.data? p = none ↔ t.nodes.get? p = none := by
    intro t
    simp [data?]
  rw [Ne, hdata, hdata]
  cases hc : v.isClosed s with
  | true =>
    have hsame : (v.close s).1 = v := by
      simp [close, hc]
    rw [hsame]
    refine ⟨fun he => ?_, fun hgone => absurd hgone.2 hgone.1⟩
    cases he with
    | ended hopen => cases hc.symm.trans hopen
  | false =>
    have hnodes : (v.close s).1.tree.nodes.get? p =
        if p ∈ v.tree.owned s then none else v.tree.nodes.get? p := by
      obtain ⟨_, _, hget⟩ := deleteAll_of_owned (v.tree.owned s) (t := v.tree.dropWatches s)
        h.nodes nodup_owned fun p hp => mem_owned_iff.1 hp
      simp only [close, hc, Bool.false_eq_true, if_false]
      exact hget p
    rw [hnodes]
    constructor
    · intro he
      cases he with
      | ended _ hn ho =>
        rw [hn, if_pos (mem_owned_iff.2 ⟨_, hn, ho⟩)]
        exact ⟨Option.some_ne_none _, rfl⟩
    · rintro ⟨hthere, hgone⟩
      by_cases hp : p ∈ v.tree.owned s
      · obtain ⟨n, hn, ho⟩ := mem_owned_iff.1 hp
        exact .ended hc hn ho
      · rw [if_neg hp] at hgone
        exact absurd hgone hthere

/-- The watches of a path at the moment when an act changes the nodes.  A session that ends has
lost its own by then. -/
def watchesUnder (v : Server) (p : String) : Act → List Watch
  | .close s => (v.tree.watchesAt p).filter (·.session != s)
  | _ => v.tree.watchesAt p

/-- A listener is owed a call for what an act does. -/
def Owes (v : Server) (a : Act) (d : Delivery) : Prop :=
  v.Does a d.event ∧ d.listener ∈ (v.watchesUnder d.event.path a).map (·.listener)

theorem commit_owes (r : Except Failure (Tree × List Delivery)) :
    (v.commit r).2.2 = [] ∨ (v.commit r).2.1 = .done := by
  cases r with
  | error e => exact .inl rfl
  | ok x => exact .inr rfl

theorem count_of_change {reply : Reply} {ds : List Delivery} {e : Event} (h : v.tree.Holds)
    (hfailed : ds = [] ∨ reply = .done)
    (hdone : reply = .done → ds = v.tree.deliveries e.path e)
    (hdoes : ∀ e', v.Does a e' ↔ e' = e ∧ reply = .done)
    (hunder : v.watchesUnder e.path a = v.tree.watchesAt e.path) (d : Delivery) :
    (v.Owes a d → ds.count d = 1) ∧ (¬ v.Owes a d → ds.count d = 0) := by
  obtain ⟨l, e'⟩ := d
  by_cases hreply : reply = .done
  · rw [hdone hreply, count_deliveries h]
    have howes : v.Owes a ⟨l, e'⟩ ↔
        e' = e ∧ l ∈ (v.tree.watchesAt e.path).map (·.listener) := by
      unfold Owes
      rw [hdoes]
      constructor
      · rintro ⟨⟨rfl, _⟩, hl⟩
        rw [hunder] at hl
        exact ⟨rfl, hl⟩
      · rintro ⟨rfl, hl⟩
        rw [hunder]
        exact ⟨⟨rfl, hreply⟩, hl⟩
    rw [howes]
    exact ⟨fun hyes => if_pos hyes, fun hno => if_neg hno⟩
  · rw [hfailed.resolve_right hreply]
    refine ⟨fun howes => absurd ((hdoes e').1 howes.1).2 hreply, fun _ => rfl⟩

theorem count_of_quiet {ds : List Delivery} (hdoes : ∀ e, ¬ v.Does a e) (hds : ds = [])
    (d : Delivery) : (v.Owes a d → ds.count d = 1) ∧ (¬ v.Owes a d → ds.count d = 0) := by
  rw [hds]
  exact ⟨fun howes => absurd howes.1 (hdoes _), fun _ => rfl⟩

theorem answer_owes (q : Request) : (v.answer s q).2.2 = [] ∨ (v.answer s q).2.1 = .done := by
  unfold answer
  split
  · exact .inl rfl
  · cases q with
    | create p data mode => exact commit_owes _
    | delete p => exact commit_owes _
    | write p data => exact commit_owes _
    | _ => exact .inl rfl

theorem owed_delete_of_done (hdone : (v.answer s (.delete p)).2.1 = .done) :
    (v.answer s (.delete p)).2.2 = v.tree.deliveries p (.deleted p) := by
  unfold answer at hdone ⊢
  split at hdone
  · exact nomatch hdone
  · next hopen =>
    rw [if_neg hopen]
    exact owed_commit (fun t ds h => (delete_eq_ok_iff.1 h).2.2.2.2) hdone

theorem count_close (h : v.tree.Holds) (s : SessionId) (d : Delivery) :
    (v.Owes (.close s) d → (v.close s).2.count d = 1) ∧
      (¬ v.Owes (.close s) d → (v.close s).2.count d = 0) := by
  obtain ⟨l, e⟩ := d
  cases hc : v.isClosed s with
  | true =>
    have hnone : (v.close s).2 = [] := by simp [close, hc]
    refine count_of_quiet (fun e he => ?_) hnone ⟨l, e⟩
    cases he with
    | ended hopen => cases hc.symm.trans hopen
  | false =>
    have hdrop : (v.tree.dropWatches s).Holds :=
      ⟨h.nodes, h.dropWatches.mono fun _ _ _ _ _ => trivial⟩
    have hds : (v.close s).2 =
        (v.tree.owned s).flatMap fun p => (v.tree.dropWatches s).deliveries p (.deleted p) := by
      have hexpire := deliveries_deleteAll (s := s) (v.tree.owned s) (t := v.tree.dropWatches s)
        h.nodes nodup_owned fun p hp => mem_owned_iff.1 hp
      simp only [close, hc]
      exact hexpire
    have howes : v.Owes (.close s) ⟨l, e⟩ ↔ ∃ p ∈ v.tree.owned s, e = .deleted p ∧
        l ∈ ((v.tree.dropWatches s).watchesAt p).map (·.listener) := by
      unfold Owes watchesUnder
      dsimp only
      constructor
      · rintro ⟨hdoes, hl⟩
        cases hdoes with
        | ended _ hn ho =>
          rw [← watchesAt_dropWatches] at hl
          exact ⟨_, mem_owned_iff.2 ⟨_, hn, ho⟩, rfl, hl⟩
      · rintro ⟨p, hp, rfl, hl⟩
        obtain ⟨n, hn, ho⟩ := mem_owned_iff.1 hp
        rw [watchesAt_dropWatches] at hl
        exact ⟨.ended hc hn ho, hl⟩
    rw [hds, count_flatMap_deliveries hdrop nodup_owned, howes]
    exact ⟨fun hyes => if_pos hyes, fun hno => if_neg hno⟩

/-- **An act owes a call** to each listener that watches what it changes, and owes it once. -/
theorem count_act (h : v.tree.Holds) (a : Act) (d : Delivery) :
    (v.Owes a d → (v.act a).2.count d = 1) ∧ (¬ v.Owes a d → (v.act a).2.count d = 0) := by
  cases a with
  | connect => exact count_of_quiet (fun e he => by cases he) rfl d
  | clearHistory => exact count_of_quiet (fun e he => by cases he) rfl d
  | close s => exact count_close h s d
  | write p data =>
    refine count_of_change (e := .changed p data) h (commit_owes _) owed_serverWrite
      (fun e' => ⟨fun he => ?_, fun he => ?_⟩) rfl d
    · cases he with
      | writtenByServer done => exact ⟨rfl, done⟩
    · rw [he.1]
      exact .writtenByServer he.2
  | request s q =>
    cases q with
    | create p data mode =>
      refine count_of_change (e := .changed p data) h (answer_owes _) owed_create
        (fun e' => ⟨fun he => ?_, fun he => ?_⟩) rfl d
      · cases he with
        | created done => exact ⟨rfl, done⟩
      · rw [he.1]
        exact .created he.2
    | write p data =>
      refine count_of_change (e := .changed p data) h (answer_owes _) owed_write
        (fun e' => ⟨fun he => ?_, fun he => ?_⟩) rfl d
      · cases he with
        | written done => exact ⟨rfl, done⟩
      · rw [he.1]
        exact .written he.2
    | delete p =>
      refine count_of_change (e := .deleted p) h (answer_owes _) owed_delete_of_done
        (fun e' => ⟨fun he => ?_, fun he => ?_⟩) rfl d
      · cases he with
        | deleted done => exact ⟨rfl, done⟩
      · rw [he.1]
        exact .deleted he.2
    | check p | read p | watch p l | unwatch p l =>
      refine count_of_quiet (fun e he => by cases he) ?_ d
      show (v.answer s _).2.2 = []
      unfold answer
      split <;> rfl

end Server

end Discovery.Tree
