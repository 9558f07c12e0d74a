import Discovery.Proofs.Registry.Registration
import Discovery.Proofs.Tree.Walk

/-!
# Which ancestors are missing

A call that registers looks for the ancestors of its path, from the parent upward, and stops at the
first one that is there.  Those that it has passed are then created from the top.  In a sound tree
these are all that are missing, since what is there has all its ancestors.

* `step_climb`: one look changes nothing but where the call stands.
* `run_climbing`: the looks of a call that runs alone, in any tree.
* `missing_of_walk`: what a walk upward passes, that it ends, and what a call comes to miss.
-/

namespace Discovery

open Discovery.Tree (Delivery Server)
open Discovery.Tree.Path (Ancestry Walk ancestors isNode)

/-- **The ancestors of a path that are not there**, as a list: each once, from shortest to
longest. -/
structure Tree.Lacks (t : Tree) (p : String) (qs : List String) : Prop where
  mem : ∀ q, q ∈ qs ↔ q ∈ ancestors p ∧ t.contains q = false
  rising : qs.Pairwise fun a b => a.length < b.length

theorem Tree.lacks_filter (t : Tree) (p : String) :
    t.Lacks p ((ancestors p).filter fun q => !t.contains q).reverse := by
  refine ⟨fun q => ?_, ?_⟩
  · rw [List.mem_reverse, List.mem_filter, Bool.not_eq_true']
  · rw [List.pairwise_reverse]
    exact (Path.ancestry_ancestors p).falling.filter _

namespace Registry.Interplay

open Nodes (Call)

variable {s : Interplay} {n : Nat} {p : Publication} {here : String}
  {above missing : List String}

/-- The same state, but for where a call stands. -/
def stand (s : Interplay) (n : Nat) (c : Option Call) : Interplay :=
  { s with calls := Function.update s.calls n c }

theorem stand_self {c : Option Call} (h : s.calls n = c) : s.stand n c = s := by
  unfold stand
  rw [← h, Function.update_eq_self]

theorem stand_stand (s : Interplay) (n : Nat) (c c' : Option Call) :
    (s.stand n c).stand n c' = s.stand n c' := by
  unfold stand
  dsimp only
  rw [Function.update_idem]

/-- **One look** at whether an ancestor is there changes nothing but where the call stands. -/
theorem step_climb (ho : s.server.isClosed s.registry.session = false)
    (hcall : s.calls n = some (.climb p here above missing)) :
    s.step (.go n) = some (s.stand n (if s.server.tree.contains here then
      some (.building p missing) else some (.climbing p above (here :: missing)))) := by
  have hask : s.ask s.registry.session (.check here) =
      (s, .present (s.server.tree.contains here)) := by
    unfold ask
    rw [Server.answer_of_open ho]
    rfl
  show (s.calls n).map (s.go n) = _
  rw [hcall, Option.map_some, go_ask rfl, hask]
  dsimp only
  cases s.server.tree.contains here with
  | true =>
    show some (s.take n (s.registry.buildUp p missing)) = _
    rw [Nodes.buildUp_eq]
    rfl
  | false =>
    show some (s.take n (s.registry.climbUp p above (here :: missing))) = _
    rw [Nodes.climbUp_eq]
    rfl

/-- **The looks of a call that runs alone.**  It passes the ancestors that are not there, and one
that is there at most. -/
theorem run_climbing (ho : s.server.isClosed s.registry.session = false)
    (hcall : s.calls n = some (.climbing p above missing)) :
    ∃ k ≤ (above.takeWhile fun q => !s.server.tree.contains q).length + 1,
      s.run (List.replicate k (.go n)) = some (s.stand n (some (.building p
        ((above.takeWhile fun q => !s.server.tree.contains q).reverse ++ missing)))) := by
  induction above generalizing s missing with
  | nil => exact ⟨0, Nat.zero_le _, congrArg some (stand_self hcall).symm⟩
  | cons here above ih =>
    have hstep := step_climb ho hcall
    cases hhere : s.server.tree.contains here with
    | true =>
      rw [hhere] at hstep
      rw [List.takeWhile_cons_of_neg (by simp [hhere])]
      exact ⟨1, Nat.le_refl 1, by rw [List.replicate_one, run_cons, hstep]; rfl⟩
    | false =>
      rw [hhere] at hstep
      obtain ⟨k, hk, hrun⟩ := ih (s := s.stand n (some (.climbing p above (here :: missing)))) ho
        (Function.update_self ..)
      rw [stand_stand] at hrun
      rw [List.takeWhile_cons_of_pos (by simp [hhere]), List.reverse_cons, List.append_assoc,
        List.singleton_append]
      refine ⟨k + 1, Nat.succ_le_succ hk, ?_⟩
      rw [List.replicate_succ, run_cons, hstep]
      exact hrun

/-- **The walk upward is exact.**  The ancestors of any path are what stands before its later
slashes, each once and the longest first; those of a path that names a node name nodes, other ones.
From any text whatever the walk comes to an end, and it passes just the ancestors.  Whatever state a
server has come to, a call on an open session that begins to look for the ancestors of its path, and
runs alone, changes nothing and comes to create just those that are not there, the shortest first,
though it asks for no more than one of the others. -/
theorem missing_of_walk :
    (∀ p, Ancestry p (ancestors p)) ∧
    (∀ p, isNode p = true → ∀ q ∈ ancestors p, isNode q = true ∧ q ≠ p) ∧
    (∀ p qs, Walk p qs ↔ qs = ancestors p) ∧
    ∀ {s : Interplay} {ds : List Delivery} {n : Nat} {p : Publication},
      s.server.Reaches ds → s.server.Alive s.registry.session →
      s.calls n = (s.registry.climbUp p (ancestors p.path) []).call →
      ∃ missing k, s.server.tree.Lacks p.path missing ∧ k ≤ missing.length + 1 ∧
        s.run (List.replicate k (.go n)) =
          some (s.stand n (s.registry.buildUp p missing).call) := by
  refine ⟨Tree.Path.ancestry_ancestors, fun p hp q hq => ?_, fun p qs => Tree.Path.walk_iff, ?_⟩
  · exact ⟨Tree.Path.isNode_of_mem_ancestors hp hq, Tree.Path.ne_of_mem_ancestors hq⟩
  · intro s ds n p hreach halive hcall
    rw [Nodes.climbUp_eq] at hcall
    obtain ⟨k, hk, hrun⟩ := run_climbing halive.2 hcall
    rw [hreach.sound.nodes.takeWhile_ancestors, List.append_nil] at hrun
    rw [hreach.sound.nodes.takeWhile_ancestors, ← List.length_reverse] at hk
    refine ⟨_, k, s.server.tree.lacks_filter p.path, hk, ?_⟩
    rw [Nodes.buildUp_eq]
    exact hrun

/-- A node is to be registered three levels below the only one that is there. -/
def deepPublication : Publication :=
  ⟨"zookeeper://h:1/a/b/c/d", "/a/b/c/d", [], .persistent⟩

/-- A call that begins to look for the ancestors of `/a/b/c/d` where `/a` is there. -/
def climbingDeep : Interplay :=
  let s := begin (fun _ _ _ => .completed) oneNode 0 1
  s.stand 0 (s.registry.climbUp deepPublication (ancestors "/a/b/c/d") []).call

/-- The ancestors between `/a` and the node are missing. -/
theorem missing_of_climbingDeep :
    isNode "/a/b/c/d" = true ∧ climbingDeep.server.Alive climbingDeep.registry.session ∧
    (∀ q ∈ ancestors "/a/b/c/d", isNode q = true ∧ q ≠ "/a/b/c/d") ∧
    ∃ missing k, climbingDeep.server.tree.Lacks "/a/b/c/d" missing ∧ "/a/b" ∈ missing ∧
      "/a/b/c" ∈ missing ∧ "/a" ∉ missing ∧ k ≤ missing.length + 1 ∧
      climbingDeep.run (List.replicate k (.go 0)) = some (climbingDeep.stand 0
        (climbingDeep.registry.buildUp deepPublication missing).call) := by
  obtain ⟨_, hnode, _, hclimb⟩ := missing_of_walk
  have hreach : climbingDeep.server.Reaches _ :=
    .act (.request 1 (.create "/a" [] .persistent)) (.act .connect .start trivial)
      ⟨by decide, by decide⟩
  have halive : climbingDeep.server.Alive climbingDeep.registry.session :=
    ⟨⟨by decide, by decide⟩, by decide⟩
  have hdeep : isNode "/a/b/c/d" = true := by decide +kernel
  obtain ⟨missing, k, hlacks, hk, hrun⟩ :=
    hclimb (n := 0) (p := deepPublication) hreach halive rfl
  refine ⟨hdeep, halive, hnode _ hdeep, missing, k, hlacks, ?_, ?_, ?_, hk, hrun⟩
  · exact (hlacks.mem _).2 (by decide +kernel)
  · exact (hlacks.mem _).2 (by decide +kernel)
  · exact fun h => absurd ((hlacks.mem _).1 h) (by decide +kernel)

end Registry.Interplay

end Discovery
