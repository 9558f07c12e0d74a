import Discovery.Proofs.Registry.Site
import Discovery.Proofs.Tree.Answer

/-!
# What a step of a registration does

A call that registers looks at its target and deletes what is there, climbs to the lowest ancestor
that is there, creates those that are missing and then the node.  While others do the same, what
the call has seen of the ancestors goes on to hold, since no ancestor ever goes (`Stands`).

* `Turn`: what a step of such a call may come to, for the nodes and for the call.
* `comes_of_stands`: each request that such a call makes comes to one of these.
-/

namespace Discovery.Registry.Nodes

open Discovery.Tree (Node Request Reply Server)
open Discovery.Tree.Path (ancestors parent?)

variable {es : List Errand} {t : Tree} {p : Publication} {r : Nodes} {c : Call}
  {ns ns' : Table Node} {above missing : List String}

def leaf (p : Publication) : Request :=
  .create p.path p.data p.mode

/-- Whether a call that registers is done with what stood at its target. -/
def Call.cleared : Call → Bool
  | .climb _ _ _ _ | .build _ _ _ | .putLeaf _ => true
  | _ => false

/-- **Where a call stands that registers**: whatever it takes for an ancestor is one, and those
that it takes to be there are there. -/
inductive Stands (p : Publication) (ns : Table Node) : Call → Prop
  | check : Stands p ns (.checkLeaf p)
  | clear : Stands p ns (.clearLeaf p)
  | climb {here : String} {above missing : List String} :
      missing.reverse ++ here :: above = ancestors p.path →
      Stands p ns (.climb p here above missing)
  | build {here : String} {rest above : List String} :
      (here :: rest).reverse ++ above = ancestors p.path →
      (∀ q ∈ above, ns.contains q = true) → Stands p ns (.build p here rest)
  | put : (∀ q ∈ ancestors p.path, ns.contains q = true) → Stands p ns (.putLeaf p)

theorem Stands.mono (h : Stands p ns c)
    (hs : ∀ q ∈ ancestors p.path, ns.contains q = true → ns'.contains q = true) :
    Stands p ns' c := by
  cases h with
  | check => exact .check
  | clear => exact .clear
  | climb h => exact .climb h
  | build h hthere =>
    exact .build h fun q hq => hs q (h ▸ List.mem_append_right _ hq) (hthere q hq)
  | put hthere => exact .put fun q hq => hs q hq (hthere q hq)

theorem exists_buildUp (r : Nodes) (h : missing.reverse ++ above = ancestors p.path)
    (hthere : ∀ q ∈ above, ns.contains q = true) :
    ∃ c, r.buildUp p missing = r.goOn c ∧ Stands p ns c ∧ c.cleared = true := by
  cases missing with
  | nil => exact ⟨_, rfl, .put fun q hq => hthere q (by rwa [← h] at hq), rfl⟩
  | cons here rest => exact ⟨_, rfl, .build h hthere, rfl⟩

theorem exists_climbUp (r : Nodes) (missing : List String)
    (h : missing.reverse ++ above = ancestors p.path) :
    ∃ c, r.climbUp p above missing = r.goOn c ∧ Stands p ns c ∧ c.cleared = true := by
  cases above with
  | nil => exact exists_buildUp r h fun _ hq => absurd hq List.not_mem_nil
  | cons here above => exact ⟨_, rfl, .climb h, rfl⟩

/-- **What a step of a call that registers may come to**: the nodes afterwards, and the step, where
`cleared` says whether the call was done with what stood at its target before, and `replies` is
what it was told. -/
inductive Turn (p : Publication) (r : Nodes) (ns : Table Node) :
    Bool → List (Request × Reply) → Table Node → Step Nodes Call → Prop
  /-- Nothing changes.  The call is done with what stood at its target if there is nothing. -/
  | look {cleared : Bool} {replies : List (Request × Reply)} {c : Call}
      (other : ∀ y ∈ replies, y.1 ≠ leaf p) (stands : Stands p ns c)
      (done : c.cleared = true → cleared = true ∨ ns.get? p.path = none) :
      Turn p r ns cleared replies ns (r.goOn c)
  /-- The node at the target goes. -/
  | clear {cleared : Bool} {replies : List (Request × Reply)} {c : Call}
      (other : ∀ y ∈ replies, y.1 ≠ leaf p) (stands : Stands p (ns.erase p.path) c) :
      Turn p r ns cleared replies (ns.erase p.path) (r.goOn c)
  /-- An ancestor is created. -/
  | raise {replies : List (Request × Reply)} {c : Call} {q : String}
      (other : ∀ y ∈ replies, y.1 ≠ leaf p) (way : q ∈ ancestors p.path)
      (absent : ns.get? q = none)
      (parent : ∀ u, parent? q = some u → ∃ m, ns.get? u = some m ∧ m.owner = none)
      (stands : Stands p (ns.insert q ⟨[], none⟩) c) :
      Turn p r ns true replies (ns.insert q ⟨[], none⟩) (r.goOn c)
  /-- The node is created, and the call is over. -/
  | put (absent : ns.get? p.path = none)
      (parent : ∀ u, parent? p.path = some u → ∃ m, ns.get? u = some m ∧ m.owner = none) :
      Turn p r ns true [(leaf p, .done)]
        (ns.insert p.path ⟨p.data, p.mode.owner r.session⟩) r.finish
  /-- There is a node again, and the call has failed. -/
  | meet (present : ns.contains p.path = true) :
      Turn p r ns true [(leaf p, .failed (.nodeExists p.path))] ns
        (r.fail "register" p.name (Tree.Failure.nodeExists p.path).toFailure)

/-- A call makes a request, and the reply comes to a turn. -/
def Comes (p : Publication) (r : Nodes) (v : Server) (c : Call) : Prop :=
  ∃ q v' reply ds, c.need = .ask q ∧ v.answer r.session q = (v', reply, ds) ∧
    v'.closed = v.closed ∧
    Turn p r v.tree.nodes c.cleared [(q, reply)] v'.tree.nodes (r.answered c reply)

section

variable {v : Server}

theorem answer_check (ho : v.isClosed r.session = false) (q : String) :
    v.answer r.session (.check q) = (v, .present (v.tree.contains q), []) :=
  Server.answer_of_open ho _

theorem comes_check (hc : Clear es t) (hp : IsTarget es p.path)
    (ho : v.isClosed r.session = false) : Comes p r v (.checkLeaf p) := by
  refine ⟨_, _, _, _, rfl, answer_check ho _, rfl, ?_⟩
  have hroot := Server.contains_of_isNode (v := v) (hc.isNode_target hp)
  cases hb : v.tree.contains p.path with
  | true => exact .look (by simp [leaf]) .clear (nomatch ·)
  | false =>
    obtain ⟨c, hstep, hs, _⟩ := exists_climbUp r [] rfl
    rw [show r.answered (.checkLeaf p) (.present false) = r.goOn c from hstep]
    rw [hroot] at hb
    exact .look (by simp [leaf]) hs fun _ => .inr (by simpa [Table.contains] using hb)

/-- The node at the target has nothing below it, so it goes, or has gone meanwhile. -/
theorem comes_clear (hc : Clear es t) (hk : Kept es t.nodes v.tree.nodes)
    (hp : IsTarget es p.path) (ho : v.isClosed r.session = false) :
    Comes p r v (.clearLeaf p) := by
  have hchild : v.tree.hasChildren p.path = false := by
    rw [Bool.eq_false_iff]
    intro hb
    obtain ⟨q, n, hq, hpq⟩ := Tree.hasChildren_iff.1 hb
    exact nomatch hpq.symm.trans (hk.childless hc hp hq)
  rcases Server.answer_delete ho (hc.isNode_target hp) hchild with
    ⟨hnone, hans⟩ | ⟨t', ds, hans, hnodes⟩
  · obtain ⟨c, hstep, hs, _⟩ := exists_climbUp r [] rfl
    refine ⟨_, _, _, _, rfl, hans, rfl, ?_⟩
    rw [show r.answered (.clearLeaf p) (.failed (.noNode p.path)) = r.goOn c from hstep]
    exact .look (by simp [leaf]) hs fun _ => .inr hnone
  · obtain ⟨c, hstep, hs, _⟩ := exists_climbUp r [] rfl
    refine ⟨_, _, _, _, rfl, hans, rfl, ?_⟩
    rw [show r.answered (.clearLeaf p) .done = r.goOn c from hstep, hnodes]
    exact .clear (by simp [leaf]) hs

/-- Where an ancestor is there, whatever stands above it is there as well. -/
theorem comes_climb {here : String} (hc : Clear es t) (hk : Kept es t.nodes v.tree.nodes)
    (hway : ∀ q ∈ ancestors p.path, OnWay es q) (ho : v.isClosed r.session = false)
    (hsplit : missing.reverse ++ here :: above = ancestors p.path) :
    Comes p r v (.climb p here above missing) := by
  refine ⟨_, _, _, _, rfl, answer_check ho _, rfl, ?_⟩
  have hroot := Server.contains_of_isNode (v := v)
    (hc.isNode_way (hway here (by simp [← hsplit])))
  cases hb : v.tree.contains here with
  | true =>
    rw [hroot] at hb
    obtain ⟨n, hn⟩ := Option.isSome_iff_exists.1 hb
    have hthere : ∀ q ∈ here :: above, v.tree.nodes.contains q = true := by
      intro q hq
      rcases List.mem_cons.1 hq with rfl | hq
      · exact hb
      · rw [← Tree.Path.ancestors_of_eq_append hsplit.symm] at hq
        obtain ⟨m, hm, _⟩ := hk.sound.ancestors hn hq
        exact Option.isSome_iff_exists.2 ⟨m, hm⟩
    obtain ⟨c, hstep, hs, _⟩ := exists_buildUp r hsplit hthere
    rw [show r.answered (.climb p here above missing) (.present true) = r.goOn c from hstep]
    exact .look (by simp [leaf]) hs fun _ => .inl rfl
  | false =>
    obtain ⟨c, hstep, hs, _⟩ := exists_climbUp r (here :: missing) (by simpa using hsplit)
    rw [show r.answered (.climb p here above missing) (.present false) = r.goOn c from hstep]
    exact .look (by simp [leaf]) hs fun _ => .inl rfl

/-- What stands above the ancestor is there and stays, so the ancestor is created, or has come
meanwhile. -/
theorem comes_build {here : String} {rest : List String} (hc : Clear es t)
    (hk : Kept es t.nodes v.tree.nodes) (hway : ∀ q ∈ ancestors p.path, OnWay es q)
    (ho : v.isClosed r.session = false)
    (hsplit : (here :: rest).reverse ++ above = ancestors p.path)
    (hthere : ∀ q ∈ above, v.tree.nodes.contains q = true) :
    Comes p r v (.build p here rest) := by
  rw [List.reverse_cons, List.append_assoc, List.singleton_append] at hsplit
  have hmem : here ∈ ancestors p.path := by simp [← hsplit]
  have hne : here ≠ p.path := Tree.Path.ne_of_mem_ancestors hmem
  have habove := Tree.Path.ancestors_of_eq_append hsplit.symm
  have hpar := hk.parent hc (fun q hq => (hway here hmem).above hq) (habove ▸ hthere)
  rcases Server.answer_create (s := r.session) ho (hc.isNode_way (hway here hmem))
    (Tree.checkParent_eq_ok_iff.2 hpar) with ⟨hb, hans⟩ | ⟨hnone, t', ds, hans, hnodes⟩
  · obtain ⟨c, hstep, hs, _⟩ := exists_buildUp r hsplit (List.forall_mem_cons.2 ⟨hb, hthere⟩)
    refine ⟨_, _, _, _, rfl, hans, rfl, ?_⟩
    rw [show r.answered (.build p here rest) (.failed (.nodeExists here)) = r.goOn c from hstep]
    exact .look (by simp [leaf, hne]) hs fun _ => .inl rfl
  · have hthere' : ∀ q ∈ here :: above,
        (v.tree.nodes.insert here ⟨[], none⟩).contains q = true := by
      intro q hq
      rw [Table.contains, Table.get?_insert]
      split
      · rfl
      · next hne => exact hthere q ((List.mem_cons.1 hq).resolve_left hne)
    obtain ⟨c, hstep, hs, _⟩ := exists_buildUp r hsplit hthere'
    refine ⟨_, _, _, _, rfl, hans, rfl, ?_⟩
    rw [show r.answered (.build p here rest) .done = r.goOn c from hstep, hnodes]
    exact .raise (by simp [leaf, hne]) hmem hnone hpar hs

theorem comes_put (hc : Clear es t) (hk : Kept es t.nodes v.tree.nodes)
    (hp : IsTarget es p.path) (hway : ∀ q ∈ ancestors p.path, OnWay es q)
    (ho : v.isClosed r.session = false)
    (hthere : ∀ q ∈ ancestors p.path, v.tree.nodes.contains q = true) :
    Comes p r v (.putLeaf p) := by
  have hpar := hk.parent hc hway hthere
  rcases Server.answer_create (s := r.session) ho (hc.isNode_target hp)
    (Tree.checkParent_eq_ok_iff.2 hpar) with ⟨hb, hans⟩ | ⟨hnone, t', ds, hans, hnodes⟩
  · exact ⟨_, _, _, _, rfl, hans, rfl, .meet hb⟩
  · refine ⟨_, _, _, _, rfl, hans, rfl, ?_⟩
    rw [hnodes]
    exact .put hnone hpar

/-- **Each request of a call that registers comes to a turn.** -/
theorem comes_of_stands (hc : Clear es t) (hk : Kept es t.nodes v.tree.nodes)
    (hp : IsTarget es p.path) (ho : v.isClosed r.session = false)
    (h : Stands p v.tree.nodes c) : Comes p r v c := by
  have hway : ∀ q ∈ ancestors p.path, OnWay es q := by
    obtain ⟨e, he, heq⟩ := hp
    exact fun q hq => ⟨e, he, heq ▸ hq⟩
  cases h with
  | check => exact comes_check hc hp ho
  | clear => exact comes_clear hc hk hp ho
  | climb hsplit => exact comes_climb hc hk hway ho hsplit
  | build hsplit hthere => exact comes_build hc hk hway ho hsplit hthere
  | put hthere => exact comes_put hc hk hp hway ho hthere

end

end Discovery.Registry.Nodes
