import Discovery.Tree.Path
import Mathlib.Data.List.Basic

/-!
# Parents

The parent of a path is what stands before its last slash (`parent?_eq_some_iff`), so a path lies
below its parent (`startsWith_below_of_parent?`).  A path with no slash but a leading one has no
parent: it stands at the top.
-/

namespace Discovery.Tree.Path

theorem head?_cuts_eq_some : ∀ (r x : List Char), (cuts r).head? = some x →
    x ≠ [] ∧ ∃ s, '/' ∉ s ∧ r.reverse = x ++ '/' :: s := by
  intro r
  induction r with
  | nil => intro x h; exact nomatch h
  | cons c r ih =>
    intro x h
    rw [cuts_cons] at h
    split at h
    · next hc =>
      obtain rfl : r.reverse = x := Option.some.inj h
      refine ⟨by simpa using hc.2, [], by simp, ?_⟩
      rw [List.reverse_cons, hc.1]
    · next hc =>
      obtain ⟨hx, s, hs, hr⟩ := ih x h
      refine ⟨hx, s ++ [c], ?_, by rw [List.reverse_cons, hr, List.append_assoc]; rfl⟩
      have hne : c ≠ '/' := by
        rintro rfl
        refine hc ⟨rfl, fun hr' => ?_⟩
        rw [hr'] at h
        exact nomatch h
      simpa [hs] using hne.symm

theorem head?_cuts_append {x : List Char} (hx : x ≠ []) : ∀ s : List Char, '/' ∉ s →
    (cuts (s ++ '/' :: x.reverse)).head? = some x := by
  intro s
  induction s with
  | nil => intro _; simp [cuts_cons, hx]
  | cons c s ih =>
    intro hs
    rw [List.mem_cons, not_or] at hs
    rw [List.cons_append, cuts_cons, if_neg fun hc => hs.1 hc.1.symm]
    exact ih hs.2

/-- **The parent of a path is what stands before its last slash**, if that is not empty. -/
theorem parent?_eq_some_iff {p q : String} :
    parent? p = some q ↔ q.toList ≠ [] ∧ ∃ s, '/' ∉ s ∧ p.toList = q.toList ++ '/' :: s := by
  unfold parent? ancestors
  rw [List.head?_map, Option.map_eq_some_iff]
  constructor
  · rintro ⟨x, hx, rfl⟩
    rw [String.toList_ofList]
    simpa using head?_cuts_eq_some _ x hx
  · rintro ⟨hq, s, hs, hp⟩
    refine ⟨q.toList, ?_, String.ofList_toList⟩
    rw [hp, List.reverse_append, List.reverse_cons, List.append_assoc]
    exact head?_cuts_append hq s.reverse (by simpa using hs)

theorem toList_below (p : String) : (below p).toList = p.toList ++ ['/'] := by
  rw [below, String.toList_append]
  rfl

theorem startsWith_iff {p s : String} : startsWith p s = true ↔ s.toList <+: p.toList := by
  simp [startsWith]

/-- **A path lies below its parent.** -/
theorem startsWith_below_of_parent? {p q : String} (h : parent? p = some q) :
    startsWith p (below q) = true := by
  obtain ⟨_, s, _, hp⟩ := parent?_eq_some_iff.1 h
  rw [startsWith_iff, toList_below, hp]
  exact ⟨s, by simp⟩

end Discovery.Tree.Path
