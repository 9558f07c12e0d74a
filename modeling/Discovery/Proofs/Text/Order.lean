import Discovery.Table
import Mathlib.Data.List.Basic
import Mathlib.Data.List.TakeWhile

/-!
# Texts with a common beginning

Texts are ordered like lists of characters, so the texts that begin with a given one are
neighbours: nothing else stands between the beginning itself and a text that has it
(`isPrefix_of_not_lex`).  In a table this means that one look from the beginning on is enough
to find out whether some key has it (`Table.from?_isPrefix_iff`).
-/

namespace Discovery

namespace Text

/-- What stands between a text and one of its continuations begins with it too. -/
theorem isPrefix_of_not_lex : ∀ (a b c : List Char), ¬ List.Lex (· < ·) b a →
    ¬ List.Lex (· < ·) (a ++ c) b → a <+: b := by
  intro a
  induction a with
  | nil => intro b _ _ _; exact List.nil_prefix
  | cons x a ih =>
    intro b c hab hbc
    cases b with
    | nil => exact absurd .nil hab
    | cons y b =>
      have hxy : x = y := Char.le_antisymm (Char.not_lt.1 fun h => hab (.rel h))
        (Char.not_lt.1 fun h => hbc (.rel h))
      subst hxy
      exact List.cons_prefix_cons.2
        ⟨rfl, ih b c (fun h => hab (.cons h)) fun h => hbc (.cons h)⟩

theorem le_of_isPrefix {a b : String} (h : a.toList <+: b.toList) : ¬ b < a :=
  fun hlt => h.le hlt

end Text

namespace Table

variable {α : Type}

theorem mem_dropWhile_of_not_lt {k : String} {l : List (String × α)} {e : String × α}
    (he : e ∈ l) (hk : ¬ e.1 < k) : e ∈ l.dropWhile fun x => decide (x.1 < k) := by
  rw [← List.takeWhile_append_dropWhile (p := fun x => decide (x.1 < k)) (l := l),
    List.mem_append] at he
  rcases he with he | he
  · have hlt := List.mem_takeWhile_imp he
    exact absurd (by simpa using hlt) hk
  · exact he

theorem from?_eq_some {t : Table α} {k : String} {e : String × α} (h : t.from? k = some e) :
    e ∈ t.entries ∧ ¬ e.1 < k ∧ ∀ x ∈ t.entries, ¬ x.1 < k → ¬ x.1 < e.1 := by
  unfold from? at h
  cases hd : t.entries.dropWhile (fun x => decide (x.1 < k)) with
  | nil => rw [hd] at h; exact nomatch h
  | cons y r =>
    rw [hd] at h
    obtain rfl : y = e := Option.some.inj h
    have hsub := (List.dropWhile_sublist (fun x : String × α => decide (x.1 < k))
      (l := t.entries))
    rw [hd] at hsub
    refine ⟨hsub.subset List.mem_cons_self, ?_, fun x hx hxk hlt => ?_⟩
    · have hy := List.head?_dropWhile_not (fun x : String × α => decide (x.1 < k)) t.entries
      rw [hd] at hy
      simpa using hy
    · have hmem := mem_dropWhile_of_not_lt hx hxk
      rw [hd] at hmem
      rcases List.mem_cons.1 hmem with rfl | hmem
      · exact String.lt_irrefl _ hlt
      · have hy := (List.pairwise_cons.1 (t.sorted.sublist hsub)).1 x hmem
        exact String.lt_irrefl _ (String.lt_trans hlt hy)

theorem from?_eq_none {t : Table α} {k : String} (h : t.from? k = none) :
    ∀ x ∈ t.entries, x.1 < k := by
  intro x hx
  by_contra hlt
  have hmem := mem_dropWhile_of_not_lt hx hlt
  unfold from? at h
  rw [List.head?_eq_none_iff] at h
  rw [h] at hmem
  exact nomatch hmem

/-- **One look is enough.**  Some key begins with `k` exactly when the first key from `k` on
does. -/
theorem from?_isPrefix_iff {t : Table α} {k : String} :
    (∃ e, t.from? k = some e ∧ k.toList <+: e.1.toList) ↔
      ∃ e ∈ t.entries, k.toList <+: e.1.toList := by
  constructor
  · rintro ⟨e, he, hp⟩
    exact ⟨e, (from?_eq_some he).1, hp⟩
  · rintro ⟨e, he, hp⟩
    cases hf : t.from? k with
    | none => exact absurd (from?_eq_none hf e he) (Text.le_of_isPrefix hp)
    | some f =>
      obtain ⟨_, hk, hmin⟩ := from?_eq_some hf
      obtain ⟨c, hc⟩ := hp
      refine ⟨f, rfl, Text.isPrefix_of_not_lex k.toList f.1.toList c hk ?_⟩
      rw [hc]
      exact hmin e he (Text.le_of_isPrefix ⟨c, hc⟩)

end Table

end Discovery
