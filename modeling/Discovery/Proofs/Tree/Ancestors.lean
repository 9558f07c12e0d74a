import Discovery.Proofs.Tree.Sound

/-!
# Ancestors

The ancestors of a path are the paths that it lies below (`mem_ancestors_iff`).  They are listed
from the parent upward, so behind each of them stand its own ancestors (`ancestors_of_eq_append`),
and where the path names a node, so do they (`isNode_of_mem_ancestors`).

`NodesSound.ancestors`: in a sound tree a node that is there has all its ancestors.
-/

namespace Discovery.Tree

namespace Path

variable {p q r : String}

theorem mem_cuts_iff {x : List Char} : ∀ {cs : List Char},
    x ∈ cuts cs ↔ x ≠ [] ∧ ∃ s, cs.reverse = x ++ '/' :: s := by
  intro cs
  induction cs with
  | nil => simp [cuts]
  | cons c cs ih =>
    have hstep : (∃ s, (c :: cs).reverse = x ++ '/' :: s) ↔
        (cs.reverse = x ∧ c = '/') ∨ ∃ s, cs.reverse = x ++ '/' :: s := by
      rw [List.reverse_cons]
      constructor
      · rintro ⟨s, hs⟩
        rcases List.eq_nil_or_concat s with rfl | ⟨s, d, rfl⟩
        · exact .inl (List.append_inj' hs rfl |>.imp id fun h => (List.cons.inj h).1)
        · rw [List.concat_eq_append, ← List.cons_append, ← List.append_assoc] at hs
          exact .inr ⟨s, (List.append_inj' hs rfl).1⟩
      · rintro (⟨rfl, rfl⟩ | ⟨s, hs⟩)
        · exact ⟨[], rfl⟩
        · exact ⟨s ++ [c], by rw [hs, List.append_assoc, List.cons_append]⟩
    rw [hstep, cuts_cons]
    split
    · next hc =>
      rw [List.mem_cons, ih]
      constructor
      · rintro (rfl | ⟨hx, hs⟩)
        · exact ⟨by simpa using hc.2, .inl ⟨rfl, hc.1⟩⟩
        · exact ⟨hx, .inr hs⟩
      · rintro ⟨hx, ⟨rfl, _⟩ | hs⟩
        · exact .inl rfl
        · exact .inr ⟨hx, hs⟩
    · next hc =>
      rw [ih]
      refine and_congr_right fun hx => ⟨.inr, fun h => h.resolve_left ?_⟩
      rintro ⟨rfl, rfl⟩
      exact hc ⟨rfl, by simpa using hx⟩

/-- **The ancestors of a path are the paths that it lies below.** -/
theorem mem_ancestors_iff :
    q ∈ ancestors p ↔ q.toList ≠ [] ∧ startsWith p (below q) = true := by
  have hcut : q ∈ ancestors p ↔ q.toList ∈ cuts p.toList.reverse := by
    unfold ancestors
    rw [List.mem_map]
    refine ⟨?_, fun h => ⟨q.toList, h, String.ofList_toList⟩⟩
    rintro ⟨x, hx, rfl⟩
    rwa [String.toList_ofList]
  rw [hcut, mem_cuts_iff, List.reverse_reverse, startsWith_iff, toList_below]
  refine and_congr_right fun _ => exists_congr fun s => ?_
  rw [List.append_assoc, List.singleton_append, eq_comm]

theorem ne_of_mem_ancestors (h : q ∈ ancestors p) : q ≠ p := by
  rintro rfl
  obtain ⟨s, hs⟩ := startsWith_iff.1 (mem_ancestors_iff.1 h).2
  have hlen := congrArg List.length hs
  rw [toList_below] at hlen
  simp at hlen

theorem ancestors_subset_of_mem (h : q ∈ ancestors p) (hr : r ∈ ancestors q) :
    r ∈ ancestors p := by
  obtain ⟨hne, hrq⟩ := mem_ancestors_iff.1 hr
  obtain ⟨s, hs⟩ := startsWith_iff.1 hrq
  obtain ⟨u, hu⟩ := startsWith_iff.1 (mem_ancestors_iff.1 h).2
  refine mem_ancestors_iff.2 ⟨hne, startsWith_iff.2 ⟨s ++ ['/'] ++ u, ?_⟩⟩
  rw [← hu, toList_below q, ← hs]
  simp only [List.append_assoc]

theorem parent?_of_ancestors_eq_cons {ys : List String} (h : ancestors p = q :: ys) :
    parent? p = some q ∧ ancestors q = ys := by
  have hq : parent? p = some q := by
    unfold parent?
    rw [h]
    rfl
  have heq := ancestors_eq p
  rw [hq, h] at heq
  exact ⟨hq, (List.cons.inj heq).2.symm⟩

/-- **Behind each ancestor stand its own ancestors.** -/
theorem ancestors_of_eq_append {ys : List String} : ∀ {xs : List String} {p : String},
    ancestors p = xs ++ q :: ys → ancestors q = ys := by
  intro xs
  induction xs with
  | nil => exact fun h => (parent?_of_ancestors_eq_cons h).2
  | cons x xs ih => exact fun h => ih (parent?_of_ancestors_eq_cons h).2

theorem parent?_mem_ancestors (h : parent? p = some q) : q ∈ ancestors p := by
  rw [ancestors_eq, h]
  exact List.mem_cons_self

/-! ### Ancestors name nodes -/

theorem doubled_append_of_left : ∀ {xs : List Char} (ys : List Char), doubled xs = true →
    doubled (xs ++ ys) = true := by
  intro xs ys h
  induction xs with
  | nil => exact nomatch h
  | cons a xs ih =>
    cases xs with
    | nil => exact nomatch h
    | cons b xs =>
      simp only [doubled, List.cons_append, Bool.or_eq_true] at h ih ⊢
      exact h.imp_right ih

/-- Where a text is cut at a character, what stands side by side does so before or behind it. -/
theorem doubled_append_cons (xs ys : List Char) (c : Char) :
    doubled (xs ++ c :: ys) = (doubled (xs ++ [c]) || doubled (c :: ys)) := by
  induction xs with
  | nil => rfl
  | cons a xs ih =>
    cases xs with
    | nil => simp [doubled]
    | cons b xs =>
      rw [List.cons_append] at ih
      rw [List.cons_append, List.cons_append, doubled, ih]
      exact (Bool.or_assoc ..).symm

theorem doubled_concat (xs ys : List Char) : doubled (xs ++ '/' :: '/' :: ys) = true := by
  rw [doubled_append_cons, Bool.or_eq_true]
  exact .inr rfl

/-- **The ancestors of a path that names a node name nodes.** -/
theorem isNode_of_mem_ancestors (hp : isNode p = true) (h : q ∈ ancestors p) :
    isNode q = true := by
  obtain ⟨hne, hq⟩ := mem_ancestors_iff.1 h
  obtain ⟨s, hs⟩ := startsWith_iff.1 hq
  rw [toList_below, List.append_assoc, List.singleton_append] at hs
  unfold isNode at hp ⊢
  rw [← hs] at hp
  simp only [Bool.and_eq_true, bne_iff_ne, beq_iff_eq, Bool.not_eq_true'] at hp ⊢
  obtain ⟨⟨⟨hhead, _⟩, _⟩, hdbl⟩ := hp
  -- a slash at the end of `q` would stand beside the one behind it
  have hlast : q.toList.getLast? ≠ some '/' := by
    intro hl
    obtain ⟨ys, hys⟩ := List.getLast?_eq_some_iff.1 hl
    rw [hys, List.append_assoc, List.singleton_append, doubled_concat] at hdbl
    exact nomatch hdbl
  refine ⟨⟨⟨?_, fun hroot => hlast (by rw [hroot]; rfl)⟩, hlast⟩, ?_⟩
  · rwa [List.head?_append_of_ne_nil _ hne] at hhead
  · rw [Bool.eq_false_iff]
    intro hd
    rw [doubled_append_of_left _ hd] at hdbl
    exact nomatch hdbl

end Path

/-! ### In a sound tree -/

variable {alive : SessionId → Prop} {ns : Table Node} {p q : String} {n : Node}

/-- **A node that is there has all its ancestors**, and they stay. -/
theorem NodesSound.ancestors (h : NodesSound alive ns) (hn : ns.get? p = some n)
    (hq : q ∈ Path.ancestors p) : ∃ m, ns.get? q = some m ∧ m.owner = none := by
  obtain ⟨hne, hpq⟩ := Path.mem_ancestors_iff.1 hq
  exact h.above hne hn hpq

end Discovery.Tree
