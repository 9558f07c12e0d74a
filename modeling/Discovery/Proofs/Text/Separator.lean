import Discovery.Decimal.Layout
import Discovery.Text.Blank
import Mathlib.Data.List.Count

/-!
# Texts with separators

A text that is put together from parts with a separator between them can be taken apart again, if
it is known where in a part the separator occurs: behind as many of them the same part ends
(`eq_of_append_cons_of_count`), so the first separator ends a part without one
(`eq_of_append_cons`), and the last one begins such a part (`eq_of_append_cons_last`).  A list of
such parts can be read from the text that they are joined to (`joinWith_inj`).  Digits are no
separators, and they determine their number (`digitsText_inj`).
-/

namespace Discovery

namespace Text

variable {α : Type} [DecidableEq α] {a : α}

/-- **Behind as many separators** the same part ends. -/
theorem eq_of_append_cons_of_count : ∀ {l m r t : List α}, l.count a = m.count a →
    l ++ a :: r = m ++ a :: t → l = m ∧ r = t := by
  intro l
  induction l with
  | nil =>
    intro m r t hc he
    cases m with
    | nil => exact ⟨rfl, (List.cons.inj he).2⟩
    | cons b m =>
      rw [(List.cons.inj he).1, List.count_nil, List.count_cons_self] at hc
      omega
  | cons c l ih =>
    intro m r t hc he
    cases m with
    | nil =>
      rw [← (List.cons.inj he).1, List.count_nil, List.count_cons_self] at hc
      omega
    | cons b m =>
      obtain ⟨rfl, hrest⟩ := List.cons.inj he
      rw [List.count_cons, List.count_cons] at hc
      obtain ⟨rfl, hr⟩ := ih (Nat.add_right_cancel hc) hrest
      exact ⟨rfl, hr⟩

/-- **The first separator** ends a part in which it does not occur. -/
theorem eq_of_append_cons {l m r t : List α} (hl : a ∉ l) (hm : a ∉ m)
    (he : l ++ a :: r = m ++ a :: t) : l = m ∧ r = t := by
  refine eq_of_append_cons_of_count ?_ he
  rw [List.count_eq_zero_of_not_mem hl, List.count_eq_zero_of_not_mem hm]

/-- **The last separator** begins a part in which it does not occur. -/
theorem eq_of_append_cons_last {l m r t : List α} (hr : a ∉ r) (ht : a ∉ t)
    (he : l ++ a :: r = m ++ a :: t) : l = m ∧ r = t := by
  have hrev : r.reverse ++ a :: l.reverse = t.reverse ++ a :: m.reverse := by
    simpa using congrArg List.reverse he
  obtain ⟨hrt, hlm⟩ := eq_of_append_cons (by simpa using hr) (by simpa using ht) hrev
  exact ⟨List.reverse_inj.1 hlm, List.reverse_inj.1 hrt⟩

/-! ### Joined parts -/

section

variable {c : Char} {ls ms : List String}

theorem toList_joinWith (sep : String) : ∀ ls : List String,
    (joinWith sep ls).toList = sep.toList.intercalate (ls.map String.toList) := by
  intro ls
  induction ls with
  | nil => simp [joinWith]
  | cons s ls ih =>
    cases ls with
    | nil => simp [joinWith]
    | cons s' ls =>
      rw [List.map_cons, List.map_cons, List.intercalate_cons_cons, ← List.map_cons, ← ih, joinWith,
        String.toList_append, String.toList_append]
      exact List.cons_ne_nil _ _

theorem count_joinWith {sep : String} (hc : c ∉ sep.toList) : ∀ ls : List String,
    (joinWith sep ls).toList.count c = (ls.flatMap String.toList).count c := by
  intro ls
  induction ls with
  | nil => simp [joinWith]
  | cons s ls ih =>
    cases ls with
    | nil => simp [joinWith]
    | cons s' ls =>
      rw [List.flatMap_cons, List.count_append, ← ih, joinWith, String.toList_append,
        String.toList_append, List.count_append, List.count_append,
        List.count_eq_zero_of_not_mem hc, Nat.add_zero]
      exact List.cons_ne_nil _ _

/-- **Joined parts can be read from their text**, if the separator does not occur in them. -/
theorem joinWith_inj {sep : String} (hsep : sep.toList = [c]) (hl : ∀ s ∈ ls, c ∉ s.toList)
    (hm : ∀ s ∈ ms, c ∉ s.toList) (hls : ls ≠ []) (hms : ms ≠ [])
    (h : joinWith sep ls = joinWith sep ms) : ls = ms := by
  have hsplit : ∀ {ps : List String}, (∀ s ∈ ps, c ∉ s.toList) → ps ≠ [] →
      (joinWith sep ps).toList.splitOn c = ps.map String.toList := by
    intro ps hps hne
    rw [toList_joinWith, hsep]
    exact List.splitOn_intercalate c (List.forall_mem_map.2 hps)
      fun hnil => hne (List.map_eq_nil_iff.1 hnil)
  have hmap : ls.map String.toList = ms.map String.toList := by
    rw [← hsplit hl hls, h, hsplit hm hms]
  exact (List.map_inj_right fun _ _ => String.toList_inj.1).1 hmap

end

end Text

namespace Decimal

theorem not_mem_digitsText {c : Char} (hc : c.isDigit = false) (n : Nat) :
    c ∉ (digitsText n).toList := by
  intro h
  rw [digitsText, String.toList_ofList] at h
  exact absurd (Nat.isDigit_of_mem_toDigits (by decide) (by decide) h) (by simp [hc])

/-- **Digits determine their number.** -/
theorem digitsText_inj {m n : Nat} (h : (digitsText m).toList = (digitsText n).toList) :
    m = n := by
  rw [digitsText, digitsText, String.toList_ofList, String.toList_ofList] at h
  rw [← Nat.ofDigitChars_toDigits (b := 10) (n := m) (by decide) (by decide), h,
    Nat.ofDigitChars_toDigits (by decide) (by decide)]

end Decimal

end Discovery
