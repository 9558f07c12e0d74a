import Discovery.Proofs.Text.Encoding
import Discovery.Proofs.Tree.Refusal
import Discovery.Proofs.Tree.Reach

/-!
# Children

What lies below a node lies below one of its children, for a node that is there has all its
ancestors.  So a node has something below it exactly when it has a child, and the children are
found among the paths that begin with its own path and a slash.

* `Path.after?_eq_some_iff`: the paths that begin with a text.
* `mem_children_iff`, `pairwise_children`: the names that are listed, and their order.
* `NodesSound.hasBelow_iff`: something lies below, or there are no children.
* `children_of_reaches`: all of it, for every state that a server comes to.
-/

namespace Discovery.Tree

namespace Path

variable {p q start n : String}

theorem after?_eq_some_iff : after? q start = some n ↔ q = start ++ n := by
  unfold after?
  constructor
  · intro h
    split at h
    · next hq =>
      obtain ⟨rest, hrest⟩ := startsWith_iff.1 hq
      obtain rfl := Option.some.inj h
      refine String.toList_inj.1 ?_
      rw [String.toList_append, String.toList_ofList, ← hrest, List.drop_left]
    · exact nomatch h
  · rintro rfl
    have hq : startsWith (start ++ n) start = true :=
      startsWith_iff.2 ⟨n.toList, String.toList_append.symm⟩
    rw [if_pos hq, String.toList_append, List.drop_left, String.ofList_toList]

theorem lex_of_append {x a b : List Char} (h : List.Lex (· < ·) (x ++ a) (x ++ b)) :
    List.Lex (· < ·) a b := by
  induction x with
  | nil => exact h
  | cons c x ih =>
    cases h with
    | cons h => exact ih h
    | rel h => exact absurd h (Char.lt_irrefl c)

theorem lt_of_append_lt_append {m : String} (h : start ++ m < start ++ n) : m < n := by
  have hlex : List.Lex (· < ·) (start ++ m).toList (start ++ n).toList := h
  rw [String.toList_append, String.toList_append] at hlex
  exact lex_of_append hlex

def child (p n : String) : String :=
  (if p = "/" then "/" else below p) ++ n

end Path

variable {t : Tree} {p n : String} {alive : SessionId → Prop}

/-! ### The names that are listed -/

/-- **A name is listed** if it has no slash and there is a node at its path. -/
theorem mem_children_iff : n ∈ t.children p ↔
    t.Present (Path.child p n) ∧ n ≠ "" ∧ '/' ∉ n.toList := by
  unfold children Path.child
  dsimp only
  rw [List.mem_filter, List.mem_filterMap]
  refine and_congr ?_ (by simp)
  constructor
  · rintro ⟨q, hq, hn⟩
    rw [Path.after?_eq_some_iff] at hn
    rw [← hn, present_iff_contains]
    exact Table.mem_keys_iff.1 hq
  · intro hthere
    exact ⟨_, Table.mem_keys_iff.2 (present_iff_contains.1 hthere), Path.after?_eq_some_iff.2 rfl⟩

/-- **The names are in the order of their bytes.** -/
theorem pairwise_children (t : Tree) (p : String) :
    (t.children p).Pairwise fun m n => Bytes.ofText m < Bytes.ofText n := by
  have hkeys : t.nodes.keys.Pairwise (· < ·) := List.pairwise_map.2 t.nodes.sorted
  refine (hkeys.filterMap _ ?_).filter _
  intro a b hab m hm n hn
  obtain rfl := Path.after?_eq_some_iff.1 hm
  obtain rfl := Path.after?_eq_some_iff.1 hn
  exact Bytes.ofText_lt_ofText (Path.lt_of_append_lt_append hab)

theorem nodup_children (t : Tree) (p : String) : (t.children p).Nodup :=
  (pairwise_children t p).imp fun {m n} hlt heq => by
    subst heq
    exact List.lt_irrefl _ hlt

/-! ### In a sound tree -/

theorem NodesSound.ne_empty_of_child (h : NodesSound alive t.nodes)
    (hn : t.Present (Path.child p n)) : n ≠ "" := by
  rintro rfl
  obtain ⟨m, hm⟩ := hn
  have hslash : (Path.child p "").toList.getLast? = some '/' := by
    unfold Path.child
    rw [String.append_empty]
    split
    · rfl
    · rw [Path.toList_below, List.getLast?_concat]
  have hnode := h.isNode _ m hm
  simp [Path.isNode, hslash] at hnode

/-- **What lies below a node lies below one of its children**, or is one. -/
theorem NodesSound.exists_child (h : NodesSound alive t.nodes) (hp : p ≠ "/") (hb : t.HasBelow p) :
    ∃ n, n ∈ t.children p := by
  obtain ⟨q, hq, hbelow⟩ := hb
  obtain ⟨rest, hrest⟩ := Path.startsWith_iff.1 hbelow
  have hlist : ∀ n : List Char, '/' ∉ n → t.Present (Path.child p (String.ofList n)) →
      ∃ n, n ∈ t.children p := by
    intro n hn hthere
    refine ⟨_, mem_children_iff.2 ⟨hthere, h.ne_empty_of_child hthere, ?_⟩⟩
    rwa [String.toList_ofList]
  have hchild : ∀ n : List Char, (Path.child p (String.ofList n)).toList =
      (Path.below p).toList ++ n := by
    intro n
    rw [Path.child, if_neg hp, String.toList_append, String.toList_ofList]
  by_cases hs : '/' ∈ rest
  · -- the first segment of the rest names an ancestor
    obtain ⟨n, more, rfl, hn⟩ := List.eq_append_cons_of_mem hs
    refine hlist n hn ?_
    obtain ⟨m, hm⟩ := hq
    have hbelow' : Path.startsWith q (Path.below (Path.child p (String.ofList n))) = true := by
      rw [Path.startsWith_iff, Path.toList_below, hchild, ← hrest]
      exact ⟨more, by simp⟩
    have hne : (Path.child p (String.ofList n)).toList ≠ [] := by
      rw [hchild, Path.toList_below]
      simp
    obtain ⟨m', hm', -⟩ := h.above hne hm hbelow'
    exact ⟨m', hm'⟩
  · refine hlist rest hs ?_
    have hqp : q = Path.child p (String.ofList rest) :=
      String.toList_inj.1 ((hchild rest).trans hrest).symm
    exact hqp ▸ hq

/-- **Something lies below a node exactly when it has a child.** -/
theorem NodesSound.hasBelow_iff (h : NodesSound alive t.nodes) (hp : p ≠ "/") :
    t.HasBelow p ↔ t.children p ≠ [] := by
  constructor
  · intro hb
    obtain ⟨n, hn⟩ := h.exists_child hp hb
    exact List.ne_nil_of_mem hn
  · intro hne
    obtain ⟨n, hn⟩ := List.exists_mem_of_ne_nil _ hne
    refine ⟨_, (mem_children_iff.1 hn).1, ?_⟩
    rw [Path.child, if_neg hp, Path.startsWith_iff, String.toList_append]
    exact List.prefix_append _ _

/-- **The children of a node**, and what lies below it, in every state that a server comes to. -/
theorem Server.children_of_reaches {v : Server} {ds : List Delivery} (h : v.Reaches ds) :
    (∀ p, v.tree.Present p →
      (v.tree.hasChildren p = true ↔
        ∃ q, v.tree.Present q ∧ Path.startsWith q (Path.below p) = true) ∧
      (v.tree.hasChildren p = true ↔ v.tree.children p ≠ [])) ∧
    ∀ p, (∀ n, n ∈ v.tree.children p ↔ '/' ∉ n.toList ∧ v.tree.Present (Path.child p n)) ∧
      (v.tree.children p).Nodup ∧
      (v.tree.children p).Pairwise fun m n => Bytes.ofText m < Bytes.ofText n := by
  have hnodes := h.sound.nodes
  refine ⟨fun p hp => ?_, fun p => ⟨fun n => ?_, nodup_children _ p, pairwise_children _ p⟩⟩
  · have hroot : p ≠ "/" := by
      rintro rfl
      obtain ⟨n, hn⟩ := hp
      exact absurd (hnodes.isNode _ n hn) (by decide)
    exact ⟨Tree.hasBelow_iff.symm, Tree.hasBelow_iff.symm.trans (hnodes.hasBelow_iff hroot)⟩
  · rw [mem_children_iff]
    constructor
    · rintro ⟨hthere, -, hn⟩
      exact ⟨hn, hthere⟩
    · rintro ⟨hn, hthere⟩
      exact ⟨hthere, hnodes.ne_empty_of_child hthere, hn⟩

/-- A server with a node, its child, and siblings whose names sort on both sides of the slash. -/
def Server.siblings : Server :=
  let v := ((∅ : Server).act .connect).1
  let v := (v.act (.request 1 (.create "/p" [] .persistent))).1
  let v := (v.act (.request 1 (.create "/p-x" [] .persistent))).1
  let v := (v.act (.request 1 (.create "/p/a" [] .ephemeral))).1
  (v.act (.request 1 (.create "/p0" [] .persistent))).1

theorem Server.children_of_siblings :
    Server.siblings.Reaches [] ∧
    Server.siblings.tree.children "/" = ["p", "p-x", "p0"] ∧
    (Server.siblings.tree.hasChildren "/p" = true ↔ Server.siblings.tree.children "/p" ≠ []) ∧
    (Server.siblings.tree.hasChildren "/p-x" = true ↔
      Server.siblings.tree.children "/p-x" ≠ []) := by
  have hreaches : Server.siblings.Reaches [] :=
    .act (.request 1 (.create "/p0" [] .persistent))
      (.act (.request 1 (.create "/p/a" [] .ephemeral))
        (.act (.request 1 (.create "/p-x" [] .persistent))
          (.act (.request 1 (.create "/p" [] .persistent))
            (.act .connect .start trivial)
            ⟨by decide, by decide⟩)
          ⟨by decide, by decide⟩)
        ⟨by decide, by decide⟩)
      ⟨by decide, by decide⟩
  obtain ⟨hthere, -⟩ := Server.children_of_reaches hreaches
  exact ⟨hreaches, by decide, (hthere "/p" ⟨⟨[], none⟩, by decide⟩).2,
    (hthere "/p-x" ⟨⟨[], none⟩, by decide⟩).2⟩

end Discovery.Tree
