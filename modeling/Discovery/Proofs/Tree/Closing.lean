import Discovery.Proofs.Tree.Owed

/-!
# The end of a session

A session that is closed or dropped takes with it the nodes that it owns at that moment and the
watches that it put up, and nothing else.  Its nodes have nothing below them, so each of them can
be deleted, and they go in the order of their paths.

* `close_eq`: the server afterwards, and the calls of listeners that are owed.
* `Shut.act`: a session that has ended gets nothing done, and stays so whatever else happens.
* `cleared_of_close`: both together, for every state that a server comes to.
-/

namespace Discovery.Tree

variable {t : Tree} {s : SessionId}

theorem pairwise_owned : (t.owned s).Pairwise (· < ·) :=
  List.pairwise_map.2 (t.nodes.sorted.filter _)

namespace Server

variable {v v' : Server} {ds : List Delivery} {gone : List String}

/-- The server after a list of acts. -/
def after (v : Server) (as : List Act) : Server :=
  as.foldl (fun v a => (v.act a).1) v

/-- **What is left of a server when a session ends**, and which calls of listeners are owed.  The
nodes at the paths `gone` have gone, in this order. -/
structure Cleared (v : Server) (s : SessionId) (gone : List String) (v' : Server)
    (ds : List Delivery) : Prop where
  mem_gone : ∀ p, p ∈ gone ↔ ∃ n, v.tree.nodes.get? p = some n ∧ n.owner = some s
  ascending : gone.Pairwise (· < ·)
  nodes : ∀ p, v'.tree.nodes.get? p = if p ∈ gone then none else v.tree.nodes.get? p
  history : v'.tree.history = v.tree.history ++ gone.map .deleted
  watches : ∀ p, v'.tree.watchesAt p = (v.tree.watchesAt p).filter (·.session != s)
  owed : ds = gone.flatMap fun p => (v'.tree.watchesAt p).map fun w => ⟨w.listener, .deleted p⟩
  /-- Who watches a path from which a node has gone is told of it once. -/
  once : ∀ p l, ds.count ⟨l, .deleted p⟩ =
    if p ∈ gone ∧ l ∈ (v'.tree.watchesAt p).map (·.listener) then 1 else 0
  opened : v'.opened = v.opened
  isClosed : ∀ x, v'.isClosed x = true ↔ v.isClosed x = true ∨ x = s

/-- A session gets nothing done, and cannot be ended again. -/
def Shut (v : Server) (s : SessionId) : Prop :=
  (∀ q, v.answer s q = (v, .failed .sessionClosed, [])) ∧ v.close s = (v, [])

/-! ### The end -/

/-- **The server after the end of a session**, and the calls that are owed. -/
theorem close_eq (h : v.tree.Holds) (hopen : v.isClosed s = false) :
    v.close s = ({ v with
      tree := { v.tree.dropWatches s with
        nodes := v.tree.nodes.filter fun p _ => !(v.tree.owned s).contains p
        history := v.tree.history ++ (v.tree.owned s).map .deleted }
      closed := v.closed ++ [s] },
      (v.tree.owned s).flatMap fun p => (v.tree.dropWatches s).deliveries p (.deleted p)) := by
  have hall := deleteAll_eq_of_owned (t := v.tree.dropWatches s) (v.tree.owned s) h.nodes
    nodup_owned fun p hp => mem_owned_iff.1 hp
  unfold close expire
  rw [hopen, hall]
  rfl

theorem cleared_of_eq (h : v.tree.Holds) (hopen : v.isClosed s = false) :
    v.Cleared s (v.tree.owned s) (v.close s).1 (v.close s).2 := by
  have hdrop : (v.tree.dropWatches s).Holds :=
    ⟨h.nodes, h.dropWatches.mono fun _ _ _ _ _ => trivial⟩
  rw [close_eq h hopen]
  refine ⟨fun p => mem_owned_iff, pairwise_owned, fun p => get?_filter_not_contains _ _ p, rfl,
    fun p => watchesAt_dropWatches v.tree s p, rfl, fun p l => ?_, rfl, fun x => ?_⟩
  · refine (count_flatMap_deliveries hdrop nodup_owned).trans (if_congr ?_ rfl rfl)
    constructor
    · rintro ⟨q, hq, he, hl⟩
      obtain rfl : p = q := Event.deleted.inj he
      exact ⟨hq, hl⟩
    · rintro ⟨hp, hl⟩
      exact ⟨p, hp, rfl, hl⟩
  · simp [isClosed]

/-! ### Afterwards -/

theorem shut_iff : v.Shut s ↔ v.isClosed s = true := by
  constructor
  · intro h
    by_contra hopen
    have hcheck := h.1 (.check "/")
    rw [answer_of_open (by simpa using hopen)] at hcheck
    exact nomatch (Prod.mk.inj (Prod.mk.inj hcheck).2).1
  · intro h
    exact ⟨fun q => by simp [answer, h], by simp [close, h]⟩

/-- **Who is shut out stays so**, whatever is done to the server. -/
theorem Shut.act (h : v.Shut s) (a : Act) : (v.act a).1.Shut s := by
  rw [shut_iff] at h ⊢
  cases a with
  | connect => exact h
  | clearHistory => exact h
  | request x q => exact (isClosed_answer v x q s).trans h
  | write p data => exact (isClosed_write v p data s).trans h
  | close x =>
    by_cases hx : s = x
    · subst hx
      simp [Server.act, close, h]
    · exact (isClosed_close hx).trans h

theorem Shut.after : ∀ (as : List Act) {v : Server}, v.Shut s → (v.after as).Shut s := by
  intro as
  induction as with
  | nil => intro v h; exact h
  | cons a as ih => intro v h; exact ih (h.act a)

/-- **The end of a session is complete and exact.**  The nodes that it owns go, in the order of
their paths, and so do the watches that it put up; all other nodes and watches stay as they are.
Who then watches a path from which a node has gone is told so once, and nobody is told anything
else.  From then on all requests through the session fail and do nothing, and ending it again does
nothing either. -/
theorem cleared_of_close (h : Reaches v ds) (hopen : v.isClosed s = false) :
    ∃ gone, v.Cleared s gone (v.close s).1 (v.close s).2 ∧
      ∀ as, ((v.close s).1.after as).Shut s := by
  have hholds : v.tree.Holds :=
    ⟨h.sound.nodes.mono fun _ _ _ _ _ => trivial, h.sound.watches.mono fun _ _ _ _ _ => trivial⟩
  have hcleared := cleared_of_eq hholds hopen
  refine ⟨v.tree.owned s, hcleared, fun as => Shut.after as ?_⟩
  exact shut_iff.2 ((hcleared.isClosed s).2 (.inr rfl))

/-- Two sessions have nodes at the top.  Of the nodes of the second one, one was deleted by the
first and created again as its own; the others are watched through both sessions. -/
def shared : Server :=
  (∅ : Server).after [.connect, .connect,
    .request 2 (.create "/b" [1] .ephemeral), .request 2 (.create "/a" [2] .ephemeral),
    .request 1 (.delete "/a"), .request 1 (.create "/a" [3] .ephemeral),
    .request 2 (.create "/c" [4] .persistent), .request 2 (.create "/c/d" [5] .ephemeral),
    .request 1 (.watch "/b" (.named "l")), .request 2 (.watch "/b" (.named "m")),
    .request 1 (.watch "/c/d" (.named "l")), .request 2 (.watch "/a" (.named "m"))]

theorem reaches_shared : Reaches shared [] := by
  refine .act _ (.act _ (.act _ (.act _ (.act _ (.act _ (.act _ (.act _ (.act _ (.act _ (.act _
    (.act _ .start trivial) trivial) ?_) ?_) ?_) ?_) ?_) ?_) ?_) ?_) ?_) ?_ <;>
    exact ⟨by decide, by decide⟩

/-- The second session ends: the node that the first one has created again stays. -/
theorem cleared_of_shared : Reaches shared [] ∧ shared.isClosed 2 = false ∧
    (∃ gone, shared.Cleared 2 gone (shared.close 2).1 (shared.close 2).2 ∧
      ∀ as, ((shared.close 2).1.after as).Shut 2) ∧
    (shared.close 2).1.tree.paths = ["/a", "/c"] ∧
    (shared.close 2).2 = [⟨.named "l", .deleted "/b"⟩, ⟨.named "l", .deleted "/c/d"⟩] := by
  have hopen : shared.isClosed 2 = false := by decide
  exact ⟨reaches_shared, hopen, cleared_of_close reaches_shared hopen, by decide, by decide⟩

end Server

end Discovery.Tree
