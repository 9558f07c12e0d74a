import Discovery.Proofs.Tree.Owed

/-!
# A tree without its watches

Watches are told of what becomes of the nodes, but have no part in it: what an act makes of the
nodes and what is answered is the same whoever watches.

* `answer_bare`, `act_bare`: forgetting the watches before an act or after it comes to the same.
* `act_congr`, `reply_congr`: servers that differ in their watches only, and go on doing so.
* `Does.congr_changed`: an act gives the same nodes data on both.
* `owed_of_changed`, `deleted_of_not_changed`: an act that gives a node data owes its watches word
  of that, and any other act owes nobody word of new data.
-/

namespace Discovery.Tree

/-- The tree, but that nobody watches it. -/
def bare (t : Tree) : Tree :=
  { t with watches := ∅ }

variable {t : Tree} {s : SessionId} {p : String} {data : Bytes} {mode : Mode} {l : Listener}

theorem bare_create (t : Tree) (s : SessionId) (p : String) (data : Bytes) (mode : Mode) :
    t.bare.create s p data mode = (t.create s p data mode).map fun x => (x.1.bare, []) := by
  unfold create
  have hcontains : t.bare.contains p = t.contains p := rfl
  have hparent : t.bare.checkParent p = t.checkParent p := rfl
  rw [hcontains, hparent]
  cases Path.isNode p with
  | false => rfl
  | true =>
    cases t.contains p with
    | true => rfl
    | false => cases t.checkParent p <;> rfl

theorem bare_delete (t : Tree) (p : String) :
    t.bare.delete p = (t.delete p).map fun x => (x.1.bare, []) := by
  unfold delete
  have hcontains : t.bare.nodes.contains p = t.nodes.contains p := rfl
  have hchildren : t.bare.hasChildren p = t.hasChildren p := rfl
  rw [hcontains, hchildren]
  cases Path.isNode p with
  | false => rfl
  | true =>
    cases t.nodes.contains p with
    | false => rfl
    | true => cases t.hasChildren p <;> rfl

theorem bare_write (t : Tree) (p : String) (data : Bytes) :
    t.bare.write p data = (t.write p data).map fun x => (x.1.bare, []) := by
  unfold write
  have hget : t.bare.nodes.get? p = t.nodes.get? p := rfl
  rw [hget]
  cases t.nodes.get? p <;> rfl

theorem bare_watch (t : Tree) (s : SessionId) (p : String) (l : Listener) :
    (t.watch s p l).bare = t.bare := by
  unfold watch
  dsimp only
  split <;> rfl

theorem bare_unwatch (t : Tree) (p : String) (l : Listener) : (t.unwatch p l).bare = t.bare := by
  unfold unwatch
  split <;> rfl

theorem bare_deleteAll : ∀ (ps : List String) (t : Tree),
    (t.bare.deleteAll ps).1 = (t.deleteAll ps).1.bare := by
  intro ps
  induction ps with
  | nil => intro t; rfl
  | cons p ps ih =>
    intro t
    unfold deleteAll
    rw [bare_delete]
    cases t.delete p with
    | error e => exact ih t
    | ok x => exact ih x.1

theorem bare_expire (t : Tree) (s : SessionId) : (t.bare.expire s).1 = (t.expire s).1.bare := by
  have hdrop : t.bare.dropWatches s = (t.dropWatches s).bare := rfl
  unfold expire
  rw [hdrop]
  exact bare_deleteAll _ _

namespace Server

def bare (v : Server) : Server :=
  { v with tree := v.tree.bare }

variable {v w : Server} {a : Act} {q : Request}

theorem bare_commit {r r' : Except Failure (Tree × List Delivery)}
    (h : r' = r.map fun x => (x.1.bare, [])) :
    v.bare.commit r' = ((v.commit r).1.bare, (v.commit r).2.1, []) := by
  subst h
  cases r <;> rfl

/-- **What a request does to the nodes, and what is answered, does not depend on watches.** -/
theorem answer_bare (v : Server) (s : SessionId) (q : Request) :
    (v.bare.answer s q).1.bare = (v.answer s q).1.bare ∧
      (v.bare.answer s q).2.1 = (v.answer s q).2.1 := by
  have hcommit : ∀ r r' : Except Failure (Tree × List Delivery),
      (r' = r.map fun x => (x.1.bare, [])) →
      (v.bare.commit r').1.bare = (v.commit r).1.bare ∧
        (v.bare.commit r').2.1 = (v.commit r).2.1 := by
    intro r r' h
    rw [bare_commit h]
    exact ⟨rfl, rfl⟩
  unfold answer
  have hclosed : v.bare.isClosed s = v.isClosed s := rfl
  rw [hclosed]
  split
  · exact ⟨rfl, rfl⟩
  · cases q with
    | check p => exact ⟨rfl, rfl⟩
    | read p => exact ⟨rfl, rfl⟩
    | create p data mode => exact hcommit _ _ (bare_create ..)
    | delete p => exact hcommit _ _ (bare_delete ..)
    | write p data => exact hcommit _ _ (bare_write ..)
    | watch p l =>
      refine ⟨?_, rfl⟩
      show ({ v with tree := (v.tree.bare.watch s p l).bare } : Server) =
        { v with tree := (v.tree.watch s p l).bare }
      rw [bare_watch, bare_watch]
      rfl
    | unwatch p l =>
      refine ⟨?_, rfl⟩
      show ({ v with tree := (v.tree.bare.unwatch p l).bare } : Server) =
        { v with tree := (v.tree.unwatch p l).bare }
      rw [bare_unwatch, bare_unwatch]
      rfl

theorem write_bare (v : Server) (p : String) (data : Bytes) :
    v.bare.write p data = ((v.write p data).1.bare, (v.write p data).2.1, []) :=
  bare_commit (bare_write v.tree p data)

theorem close_bare (v : Server) (s : SessionId) : (v.bare.close s).1 = (v.close s).1.bare := by
  unfold close
  have hclosed : v.bare.isClosed s = v.isClosed s := rfl
  rw [hclosed]
  split
  · rfl
  · show ({ v with tree := (v.tree.bare.expire s).1, closed := v.closed ++ [s] } : Server) = _
    rw [bare_expire]
    rfl

/-- **What an act does to the nodes does not depend on watches.** -/
theorem act_bare (v : Server) (a : Act) : (v.bare.act a).1.bare = (v.act a).1.bare := by
  cases a with
  | connect => rfl
  | request s q => exact (answer_bare v s q).1
  | write p data =>
    show (v.bare.write p data).1.bare = _
    rw [write_bare]
    rfl
  | close s =>
    show (v.bare.close s).1.bare = _
    rw [close_bare]
    rfl
  | clearHistory => rfl

/-! ### Servers that differ in their watches only -/

theorem act_congr (h : w.bare = v.bare) (a : Act) : (w.act a).1.bare = (v.act a).1.bare := by
  rw [← act_bare w, h, act_bare]

theorem reply_congr (h : w.bare = v.bare) (s : SessionId) (q : Request) :
    (w.answer s q).2.1 = (v.answer s q).2.1 := by
  rw [← (answer_bare w s q).2, h, (answer_bare v s q).2]

theorem data?_congr (h : w.bare = v.bare) (p : String) : w.tree.data? p = v.tree.data? p := by
  have hdata : w.bare.tree.data? p = v.bare.tree.data? p := by rw [h]
  exact hdata

theorem reply_write_congr (h : w.bare = v.bare) (p : String) (data : Bytes) :
    (w.write p data).2.1 = (v.write p data).2.1 := by
  have hw := congrArg (·.2.1) (write_bare w p data)
  have hv := congrArg (·.2.1) (write_bare v p data)
  rw [h] at hw
  exact hw.symm.trans hv

theorem Does.congr_changed (h : w.bare = v.bare) (hd : v.Does a (.changed p data)) :
    w.Does a (.changed p data) := by
  cases hd with
  | created done => exact .created ((reply_congr h _ _).trans done)
  | written done => exact .written ((reply_congr h _ _).trans done)
  | writtenByServer done => exact .writtenByServer ((reply_write_congr h _ _).trans done)

/-! ### Whom an act owes word of new data -/

theorem owed_of_changed (h : v.Does a (.changed p data)) :
    (v.act a).2 = v.tree.deliveries p (.changed p data) := by
  cases h with
  | created done => exact owed_create done
  | written done => exact owed_write done
  | writtenByServer done => exact owed_serverWrite done

/-- **An act that gives no node data owes at most word of nodes that are gone.** -/
theorem deleted_of_not_changed (h : ∀ p data, ¬ v.Does a (.changed p data)) :
    ∀ d ∈ (v.act a).2, ∃ p, d.event = .deleted p := by
  have hnone : ∀ {ds : List Delivery}, ds = [] → ∀ d ∈ ds, ∃ p, d.event = .deleted p := by
    intro ds hnil d hd
    rw [hnil] at hd
    exact nomatch hd
  cases a with
  | connect => exact hnone rfl
  | clearHistory => exact hnone rfl
  | write p data =>
    exact hnone ((commit_owes _).resolve_right fun hdone => h p data (.writtenByServer hdone))
  | close s =>
    show ∀ d ∈ (v.close s).2, _
    unfold close
    split
    · exact hnone rfl
    · exact (lost_deleteAll _ _).2
  | request s q =>
    cases q with
    | create p data mode =>
      exact hnone ((answer_owes _).resolve_right fun hdone => h p data (.created hdone))
    | write p data =>
      exact hnone ((answer_owes _).resolve_right fun hdone => h p data (.written hdone))
    | delete p => exact owed_delete
    | check p | read p | watch p l | unwatch p l =>
      refine hnone ?_
      show (v.answer s _).2.2 = []
      unfold answer
      split <;> rfl

end Server

end Discovery.Tree
