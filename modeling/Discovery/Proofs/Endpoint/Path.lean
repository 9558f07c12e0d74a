import Discovery.Proofs.Endpoint.Key
import Discovery.Proofs.Tree.Ancestors

/-!
# Paths that name nodes

An endpoint has a path if it has segments and none of them is empty.  Slashes within the segments
are not looked at, but they cut the path as the slashes between the segments do.  So the path of an
endpoint names a node exactly if each of its segments does on its own.

* `isNode_slash_iff`: what names a node behind a slash.
* `isNode_joinWith_iff`: joined segments.
-/

namespace Discovery

namespace Tree.Path

theorem doubled_concat_slash_iff {c : Char} {cs : List Char} :
    doubled (c :: cs ++ ['/']) = true ↔
      doubled (c :: cs) = true ∨ (c :: cs).getLast? = some '/' := by
  induction cs generalizing c with
  | nil => simp [doubled]
  | cons b cs ih =>
    rw [List.cons_append, List.cons_append, doubled, ← List.cons_append, Bool.or_eq_true, ih,
      ← or_assoc, List.getLast?_cons_cons, doubled, Bool.or_eq_true]

/-- Behind a slash, a text names a node if there are no two slashes side by side when another one
follows. -/
theorem isNode_slash_iff {s : String} :
    isNode ("/" ++ s) = true ↔ doubled ('/' :: s.toList ++ ['/']) = false := by
  have htext : ("/" ++ s).toList = '/' :: s.toList := String.toList_append ..
  rw [← Bool.not_eq_true, doubled_concat_slash_iff, not_or]
  unfold isNode
  rw [htext]
  -- the slash alone ends with a slash
  have hroot : ('/' :: s.toList).getLast? ≠ some '/' → '/' :: s.toList ≠ ['/'] := by
    intro hlast hs
    rw [hs] at hlast
    exact hlast rfl
  simp only [List.head?_cons, Bool.and_eq_true, beq_self_eq_true, true_and, bne_iff_ne,
    Bool.not_eq_true', Bool.not_eq_true]
  exact ⟨fun h => ⟨h.2, h.1.2⟩, fun h => ⟨⟨hroot h.2, h.2⟩, h.1⟩⟩

/-- **Joined segments name a node exactly if each segment does.** -/
theorem isNode_joinWith_iff {ss : List String} (h : ss ≠ []) :
    isNode ("/" ++ Text.joinWith "/" ss) = true ↔ ∀ s ∈ ss, isNode ("/" ++ s) = true := by
  induction ss with
  | nil => exact absurd rfl h
  | cons s ss ih =>
    cases ss with
    | nil => simp [Text.joinWith]
    | cons s' ss =>
      have htext : '/' :: (Text.joinWith "/" (s :: s' :: ss)).toList ++ ['/'] =
          '/' :: s.toList ++ '/' :: ((Text.joinWith "/" (s' :: ss)).toList ++ ['/']) := by
        rw [Text.joinWith, String.toList_append, String.toList_append]
        · simp
        · exact List.cons_ne_nil _ _
      rw [List.forall_mem_cons, ← ih (List.cons_ne_nil _ _), isNode_slash_iff, isNode_slash_iff,
        isNode_slash_iff, htext, doubled_append_cons, Bool.or_eq_false_iff]
      rfl

end Tree.Path

namespace Endpoint

open Tree.Path (isNode)

variable {e : Endpoint} {p : String}

theorem segments_ne_nil_of_path (h : e.path = .ok p) : e.segments ≠ [] := by
  intro hs
  simp [path, hs, bind, Except.bind, throw, throwThe, MonadExceptOf.throw] at h

/-- **The path of an endpoint names a node exactly if each of its segments does.** -/
theorem isNode_path_iff (h : e.path = .ok p) :
    isNode p = true ↔ ∀ s ∈ e.segments, isNode ("/" ++ s) = true := by
  rw [← eq_of_path h]
  exact Tree.Path.isNode_joinWith_iff (segments_ne_nil_of_path h)

end Endpoint

end Discovery
