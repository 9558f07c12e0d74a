import Discovery.Proofs.Registry.Crowd
import Discovery.Proofs.Tree.Ancestors

/-!
# Where nodes are to be registered

The targets of the errands do not stand on the way to each other, and nothing stands in the tree
that they would come into conflict with (`Clear`).  While the errands are run, nodes come and go at
the targets, and on the way to them nodes without data come and stay; the rest of the tree is kept
(`Kept`).

* `Kept.raise`, `Kept.erase`, `Kept.put`: the three changes keep it.
* `Kept.childless`: nothing ever stands below a target.
* `Kept.parent`: where all ancestors of a path are there, a node may be created at it.
-/

namespace Discovery.Registry

open Discovery.Tree (Node NodesSound SessionId)
open Discovery.Tree.Path (ancestors isNode parent? startsWith below)

variable {es : List Errand} {ns ns₀ : Table Node} {p q : String} {n : Node}

def IsTarget (es : List Errand) (q : String) : Prop :=
  ∃ e ∈ es, e.target = q

/-- A path lies on the way to a target, above it. -/
def OnWay (es : List Errand) (q : String) : Prop :=
  ∃ e ∈ es, q ∈ ancestors e.target

/-- **The targets are fit for the tree and for each other**: they name nodes, no target is an
ancestor of another, nothing lies below a target, and no ancestor of a target is ephemeral. -/
structure Clear (es : List Errand) (t : Tree) : Prop where
  accepted : ∀ e ∈ es, e.endpoint.path = .ok e.target ∧ isNode e.target = true
  apart : ∀ e ∈ es, ∀ f ∈ es, e.target = f.target ∨
    e.target ∉ ancestors f.target ∧ f.target ∉ ancestors e.target
  childless : ∀ e ∈ es, t.hasChildren e.target = false
  lasting : ∀ e ∈ es, ∀ q ∈ ancestors e.target, t.isEphemeral? q ≠ some true

namespace Clear

variable {t : Tree}

theorem isNode_target (h : Clear es t) (hp : IsTarget es p) : isNode p = true := by
  obtain ⟨e, he, rfl⟩ := hp
  exact (h.accepted e he).2

theorem isNode_way (h : Clear es t) (hq : OnWay es q) : isNode q = true := by
  obtain ⟨e, he, hq⟩ := hq
  exact Tree.Path.isNode_of_mem_ancestors (h.accepted e he).2 hq

/-- **No target is on the way to a target.** -/
theorem not_onWay (h : Clear es t) (hp : IsTarget es p) : ¬ OnWay es p := by
  obtain ⟨e, he, rfl⟩ := hp
  rintro ⟨f, hf, hmem⟩
  rcases h.apart e he f hf with heq | ⟨hne, _⟩
  · exact Tree.Path.ne_of_mem_ancestors hmem heq
  · exact hne hmem

theorem owner_of_way (h : Clear es t) (hq : OnWay es q) (hn : t.nodes.get? q = some n) :
    n.owner = none := by
  obtain ⟨e, he, hq⟩ := hq
  have hl := h.lasting e he q hq
  rw [Tree.isEphemeral?, hn] at hl
  exact Tree.isEphemeral_eq_false_iff.1 (by simpa using hl)

end Clear

theorem OnWay.above {r : String} (h : OnWay es q) (hr : r ∈ ancestors q) : OnWay es r := by
  obtain ⟨e, he, hq⟩ := h
  exact ⟨e, he, Tree.Path.ancestors_subset_of_mem hq hr⟩

/-- **What is kept of the tree**: it hangs together, the nodes apart from the targets and the way
to them are as they were, and those on the way are as they were or have been created there. -/
structure Kept (es : List Errand) (ns₀ ns : Table Node) : Prop where
  sound : NodesSound (fun _ => True) ns
  rest : ∀ q, ¬ IsTarget es q → ¬ OnWay es q → ns.get? q = ns₀.get? q
  way : ∀ q, OnWay es q →
    ns.get? q = ns₀.get? q ∨ ns₀.get? q = none ∧ ns.get? q = some ⟨[], none⟩

namespace Kept

variable {t : Tree}

theorem owner_of_way (h : Kept es t.nodes ns) (hc : Clear es t) (hq : OnWay es q)
    (hn : ns.get? q = some n) : n.owner = none := by
  rcases h.way q hq with heq | ⟨_, hnew⟩
  · exact hc.owner_of_way hq (heq.symm.trans hn)
  · obtain rfl := Option.some.inj (hnew.symm.trans hn)
    rfl

/-- **Nothing stands below a target.** -/
theorem childless (h : Kept es t.nodes ns) (hc : Clear es t) (hp : IsTarget es p)
    (hn : ns.get? q = some n) : startsWith q (below p) = false := by
  rw [Bool.eq_false_iff]
  intro hpq
  have hmem : p ∈ ancestors q :=
    Tree.Path.mem_ancestors_iff.2 ⟨Tree.ne_empty_of_isNode (hc.isNode_target hp), hpq⟩
  have hway : ¬ OnWay es q := fun hq => hc.not_onWay hp (hq.above hmem)
  have htarget : ¬ IsTarget es q := by
    rintro ⟨f, hf, rfl⟩
    exact hc.not_onWay hp ⟨f, hf, hmem⟩
  rw [h.rest q htarget hway] at hn
  obtain ⟨e, he, rfl⟩ := hp
  have hchild := hc.childless e he
  rw [Tree.hasChildren_iff.2 ⟨q, n, hn, hpq⟩] at hchild
  exact nomatch hchild

/-- The parent of a path is there and stays, where all ancestors of the path are there. -/
theorem parent (h : Kept es t.nodes ns) (hc : Clear es t) (hp : ∀ q ∈ ancestors p, OnWay es q)
    (hthere : ∀ q ∈ ancestors p, ns.contains q = true) :
    ∀ q, parent? p = some q → ∃ m, ns.get? q = some m ∧ m.owner = none := by
  intro q hq
  have hmem := Tree.Path.parent?_mem_ancestors hq
  obtain ⟨m, hm⟩ := Option.isSome_iff_exists.1 (hthere q hmem)
  exact ⟨m, hm, h.owner_of_way hc (hp q hmem) hm⟩

/-! ### The three changes -/

theorem raise (h : Kept es t.nodes ns) (hc : Clear es t) (hq : OnWay es q)
    (hnone : ns.get? q = none)
    (hpar : ∀ r, parent? q = some r → ∃ m, ns.get? r = some m ∧ m.owner = none) :
    Kept es t.nodes (ns.insert q ⟨[], none⟩) where
  sound := by
    refine h.sound.insert (hc.isNode_way hq) hpar (fun _ _ => trivial) fun m hm => ?_
    exact nomatch hnone.symm.trans hm
  rest r hr hr' := by
    rw [Table.get?_insert_of_ne, h.rest r hr hr']
    rintro rfl
    exact hr' hq
  way r hr := by
    rw [Table.get?_insert]
    split
    · next heq =>
      subst heq
      refine .inr ⟨?_, rfl⟩
      rcases h.way r hr with hold | ⟨hold, _⟩
      · exact hold.symm.trans hnone
      · exact hold
    · exact h.way r hr

theorem erase (h : Kept es t.nodes ns) (hc : Clear es t) (hp : IsTarget es p) :
    Kept es t.nodes (ns.erase p) where
  sound := h.sound.erase fun q m hm => h.childless hc hp hm
  rest q hq hq' := by
    rw [Table.get?_erase_of_ne, h.rest q hq hq']
    rintro rfl
    exact hq hp
  way q hq := by
    rw [Table.get?_erase_of_ne]
    · exact h.way q hq
    · rintro rfl
      exact hc.not_onWay hp hq

theorem put (h : Kept es t.nodes ns) (hc : Clear es t) (hp : IsTarget es p)
    (hnone : ns.get? p = none)
    (hpar : ∀ q, parent? p = some q → ∃ m, ns.get? q = some m ∧ m.owner = none) :
    Kept es t.nodes (ns.insert p n) where
  sound := by
    refine h.sound.insert (hc.isNode_target hp) hpar (fun _ _ => trivial) fun m hm => ?_
    exact nomatch hnone.symm.trans hm
  rest q hq hq' := by
    rw [Table.get?_insert_of_ne, h.rest q hq hq']
    rintro rfl
    exact hq hp
  way q hq := by
    rw [Table.get?_insert_of_ne]
    · exact h.way q hq
    · rintro rfl
      exact hc.not_onWay hp hq

end Kept

end Discovery.Registry
