import Mathlib.Data.List.Induction

/-!
# What has held since

A run is a list of steps.  That something holds at its end is often due to one of them: there it
began, and all steps after it have kept it.  `Since began kept run` says so, where `began` and
`kept` are told a step and the steps before it.

* `since_concat`: it begins with the last step, or it has held before and the last step keeps it.
-/

namespace Discovery

variable {α : Type} {began kept : List α → α → Prop} {run : List α} {step : α}

/-- **At some step it began, and every step since then has kept it.** -/
def Since (began kept : List α → α → Prop) (run : List α) : Prop :=
  ∃ before first after, run = before ++ first :: after ∧ began before first ∧
    ∀ mid next rest, after = mid ++ next :: rest → kept (before ++ first :: mid) next

theorem not_since_nil : ¬ Since began kept [] := by
  rintro ⟨before, first, after, h, _⟩
  exact List.append_ne_nil_of_right_ne_nil before (List.cons_ne_nil first after) h.symm

theorem since_of_began (h : began run step) : Since began kept (run ++ [step]) :=
  ⟨run, step, [], rfl, h, fun _ _ _ hnil => absurd hnil.symm (by simp)⟩

theorem Since.concat (h : Since began kept run) (hstep : kept run step) :
    Since began kept (run ++ [step]) := by
  obtain ⟨before, first, after, rfl, hbegan, hkept⟩ := h
  refine ⟨before, first, after ++ [step], by simp, hbegan, fun mid next rest h => ?_⟩
  -- the step is the last one, or one of those before
  rcases List.eq_nil_or_concat rest with rfl | ⟨rest, last, rfl⟩
  · obtain ⟨rfl, hnext⟩ := List.append_inj' h rfl
    obtain rfl := (List.cons.inj hnext).1
    exact hstep
  · have hlast : after ++ [step] = (mid ++ next :: rest) ++ [last] := by simpa using h
    exact hkept mid next rest (List.append_inj' hlast rfl).1

/-- **It begins with the last step, or it has held before and the last step keeps it.** -/
theorem since_concat : Since began kept (run ++ [step]) ↔
    began run step ∨ Since began kept run ∧ kept run step := by
  constructor
  · rintro ⟨before, first, after, h, hbegan, hkept⟩
    rcases List.eq_nil_or_concat after with rfl | ⟨after, last, rfl⟩
    · obtain ⟨rfl, hfirst⟩ := List.append_inj' h rfl
      obtain rfl := (List.cons.inj hfirst).1
      exact .inl hbegan
    · have hlast : run ++ [step] = (before ++ first :: after) ++ [last] := by simpa using h
      obtain ⟨rfl, hstep⟩ := List.append_inj' hlast rfl
      obtain rfl := (List.cons.inj hstep).1
      refine .inr ⟨⟨before, first, after, rfl, hbegan, fun mid next rest hmid => ?_⟩, ?_⟩
      · exact hkept mid next (rest ++ [step]) (by simp [hmid])
      · exact hkept after step [] (by simp)
  · rintro (h | ⟨h, hstep⟩)
    · exact since_of_began h
    · exact h.concat hstep

end Discovery
