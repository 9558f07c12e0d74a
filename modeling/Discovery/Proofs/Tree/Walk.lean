import Discovery.Proofs.Tree.Ancestors

/-!
# The walk upward

From a path one goes up to what stands before its last slash, and on from there, until nothing
would be left.  What is passed on the way are the ancestors, and a walk comes to an end from any
text whatever, since each step shortens it.

* `walk_iff`: a walk passes the ancestors one after the other, and then it is over.
* `ancestry_ancestors`: they are what stands before the later slashes, each once, the longest first.
* `NodesSound.takeWhile_ancestors`: in a sound tree the walk passes what is not there first, and
  from then on what is there.
-/

namespace Discovery.Tree

namespace Path

variable {p q : String} {qs : List String}

/-- One step of the walk: `q` is what stands before the last slash of `p`, and it is something. -/
def Up (p q : String) : Prop :=
  q ≠ "" ∧ ∃ s : String, '/' ∉ s.toList ∧ p = below q ++ s

/-- A walk from a path upward until there is no further step, and what it passes. -/
inductive Walk : String → List String → Prop
  | top {p : String} (h : ∀ q, ¬ Up p q) : Walk p []
  | up {p q : String} {qs : List String} (h : Up p q) (rest : Walk q qs) : Walk p (q :: qs)

theorem up_iff : Up p q ↔ parent? p = some q := by
  have hne : q ≠ "" ↔ q.toList ≠ [] := by
    rw [ne_eq, ne_eq, ← String.toList_inj]
    rfl
  have heq : ∀ s : List Char, p = below q ++ String.ofList s ↔ p.toList = q.toList ++ '/' :: s := by
    intro s
    rw [← String.toList_inj, String.toList_append, toList_below, String.toList_ofList,
      List.append_assoc, List.singleton_append]
  rw [parent?_eq_some_iff, Up, hne]
  refine and_congr_right fun _ => ⟨?_, ?_⟩
  · rintro ⟨s, hs, hp⟩
    exact ⟨s.toList, hs, (heq _).1 (by rwa [String.ofList_toList])⟩
  · rintro ⟨s, hs, hp⟩
    exact ⟨String.ofList s, by rwa [String.toList_ofList], (heq s).2 hp⟩

/-- **Each step of the walk shortens the path.** -/
theorem Up.length_lt (h : Up p q) : q.length < p.length := by
  obtain ⟨_, s, _, rfl⟩ := h
  rw [String.length_append, below, String.length_append]
  show q.length < q.length + 1 + s.length
  omega

theorem walk_ancestors (p : String) : Walk p (ancestors p) := by
  generalize has : ancestors p = as
  induction as generalizing p with
  | nil =>
    refine .top fun q hq => ?_
    have hmem := parent?_mem_ancestors (up_iff.1 hq)
    rw [has] at hmem
    exact absurd hmem List.not_mem_nil
  | cons a as ih =>
    obtain ⟨hparent, hrest⟩ := parent?_of_ancestors_eq_cons has
    exact .up (up_iff.2 hparent) (ih a hrest)

/-- **From any text the walk comes to an end**, and what it passes are the ancestors. -/
theorem walk_iff : Walk p qs ↔ qs = ancestors p := by
  refine ⟨fun h => ?_, fun h => h ▸ walk_ancestors p⟩
  induction h with
  | @top p htop =>
    have hnone : parent? p = none := by
      rw [Option.eq_none_iff_forall_ne_some]
      exact fun q hq => htop q (up_iff.2 hq)
    rw [ancestors_eq, hnone]
  | @up p q qs hup _ ih => rw [ancestors_eq, up_iff.1 hup, ih]

theorem Walk.falling (h : Walk p qs) : (p :: qs).Pairwise fun a b => b.length < a.length := by
  induction h with
  | top _ => exact List.pairwise_singleton _ _
  | up hup _ ih =>
    refine List.pairwise_cons.2 ⟨fun b hb => ?_, ih⟩
    rcases List.mem_cons.1 hb with rfl | hb
    · exact hup.length_lt
    · exact ((List.pairwise_cons.1 ih).1 b hb).trans hup.length_lt

/-- **The ancestors are what stands before the later slashes.** -/
theorem mem_ancestors_iff_take : q ∈ ancestors p ↔
    ∃ i, 0 < i ∧ p.toList[i]? = some '/' ∧ q = String.ofList (p.toList.take i) := by
  rw [mem_ancestors_iff, startsWith_iff, toList_below]
  constructor
  · rintro ⟨hne, s, hs⟩
    rw [List.append_assoc, List.singleton_append] at hs
    refine ⟨q.toList.length, List.length_pos_iff.2 hne, ?_, ?_⟩
    · simp [← hs]
    · rw [← hs, List.take_left, String.ofList_toList]
  · rintro ⟨i, hi, hslash, rfl⟩
    obtain ⟨hlt, hget⟩ := List.getElem?_eq_some_iff.1 hslash
    rw [String.toList_ofList]
    refine ⟨List.ne_nil_of_length_pos (by rw [List.length_take]; omega),
      p.toList.drop (i + 1), ?_⟩
    rw [List.append_assoc, List.singleton_append, ← hget, List.getElem_cons_drop,
      List.take_append_drop]

/-- **The ancestors of a path below the root**, as a list: what stands before the slashes of the
path but the one at its beginning, each once, from longest to shortest. -/
structure Ancestry (p : String) (qs : List String) : Prop where
  mem : ∀ q, q ∈ qs ↔
    ∃ i, 0 < i ∧ p.toList[i]? = some '/' ∧ q = String.ofList (p.toList.take i)
  falling : qs.Pairwise fun a b => b.length < a.length

theorem ancestry_ancestors (p : String) : Ancestry p (ancestors p) :=
  ⟨fun _ => mem_ancestors_iff_take, (List.pairwise_cons.1 (walk_ancestors p).falling).2⟩

end Path

/-! ### In a sound tree -/

variable {alive : SessionId → Prop} {t : Tree} {p q : String}

/-- **What is there has all its ancestors**, the root as well, which has none. -/
theorem NodesSound.contains_ancestors (h : NodesSound alive t.nodes) (hp : t.contains p = true)
    (hq : q ∈ Path.ancestors p) : t.contains q = true := by
  unfold contains at hp ⊢
  rw [Bool.or_eq_true, beq_iff_eq] at hp ⊢
  rcases hp with rfl | hp
  · have hroot : Path.ancestors "/" = [] := rfl
    exact absurd (hroot ▸ hq) List.not_mem_nil
  · obtain ⟨n, hn⟩ := Option.isSome_iff_exists.1 hp
    obtain ⟨m, hm, _⟩ := h.ancestors hn hq
    exact .inr (Option.isSome_iff_exists.2 ⟨m, hm⟩)

/-- **The walk passes first what is not there**: from the first ancestor on that is there, all are.
So it makes no difference whether it stops at that one. -/
theorem NodesSound.takeWhile_ancestors (h : NodesSound alive t.nodes) (p : String) :
    (Path.ancestors p).takeWhile (fun q => !t.contains q) =
      (Path.ancestors p).filter fun q => !t.contains q := by
  generalize has : Path.ancestors p = as
  induction as generalizing p with
  | nil => rfl
  | cons a as ih =>
    obtain ⟨_, hrest⟩ := Path.parent?_of_ancestors_eq_cons has
    cases ha : t.contains a with
    | false =>
      rw [List.takeWhile_cons_of_pos (by simp [ha]), List.filter_cons_of_pos (by simp [ha]),
        ih a hrest]
    | true =>
      rw [List.takeWhile_cons_of_neg (by simp [ha]), eq_comm, List.filter_eq_nil_iff]
      intro q hq
      rcases List.mem_cons.1 hq with rfl | hq
      · simp [ha]
      · simp [h.contains_ancestors ha (hrest ▸ hq)]

end Discovery.Tree
