import Discovery.Proofs.Registry.Progress
import Discovery.Proofs.Registry.Settling
import Mathlib.Algebra.GroupWithZero.Nat

/-!
# A crowd comes to its end

Each time a call of a crowd goes on it comes closer to its end, so the calls take only so many
turns (`left_go`), and whatever has happened they can all come to their end (`exists_goes`).
-/

namespace Discovery.Registry

open Discovery.Tree (Request Reply Server SessionId)
open Discovery.Tree.Path (ancestors)

/-- A bound on the number of turns that a call still takes. -/
def Entrant.left (x : Entrant) : Nat :=
  match x.stage with
  | .waiting => (ancestors x.errand.target).length * 2 + 5
  | .under c => c.stepsLeft
  | .ended => 0

namespace Crowd

variable {es : List Errand} {t : Tree} {own : Nat → SessionId} {s s' : Crowd} {x : Entrant}
  {i : Nat}

def left (s : Crowd) : Nat :=
  (s.entrants.map (·.left)).sum

theorem left_start (r : Nodes) (hx : x.stage = .waiting) :
    (x.after [] (r.start x.errand.action)).left < x.left := by
  have hleft : x.left = (ancestors x.errand.target).length * 2 + 5 := by rw [Entrant.left, hx]
  cases hp : x.errand.endpoint.path with
  | ok path =>
    have ht : x.errand.target = path := by rw [Errand.target, hp]
    rw [start_action (hp.trans (congrArg Except.ok ht.symm)), hleft]
    exact Nat.lt_succ_self _
  | error e =>
    have hover : (x.after [] (r.start x.errand.action)).stage = .ended := by
      simp only [Nodes.start, Errand.action, hp, Entrant.after]
      rfl
    rw [hleft, Entrant.left, hover]
    exact Nat.succ_pos _

theorem left_answered (r : Nodes) {c : Nodes.Call} {q : Request} (reply : Reply)
    (hx : x.stage = .under c) (hq : c.need = .ask q) :
    (x.after [(q, reply)] (r.resume c (.answered reply))).left < x.left := by
  have hleft : x.left = c.stepsLeft := by rw [Entrant.left, hx]
  have hpos : 0 < c.stepsLeft := by cases c <;> exact Nat.succ_pos _
  have hfits : c.Fits (.answered reply) := ⟨q, hq⟩
  rw [hleft]
  cases hd : (r.resume c (.answered reply)).call with
  | none => simpa only [Entrant.left, Entrant.after, hd] using hpos
  | some d =>
    have hlt := Nodes.stepsLeft_resume hfits hd
    simpa only [Entrant.left, Entrant.after, hd] using hlt

/-- **Each turn of a call brings the calls closer to their end.** -/
theorem left_go (hgo : s.go i = some s') : s'.left < s.left := by
  obtain ⟨x, hx, hp⟩ := Option.bind_eq_some_iff.1 hgo
  have hset : ∀ y : Entrant, y.left < x.left →
      ((s.entrants.set i y).map (·.left)).sum < s.left := by
    intro y hlt
    obtain ⟨a, b, hab, hset⟩ := exists_append_of_getElem? hx
    rw [hset, left, hab]
    simp only [List.map_append, List.map_cons, List.sum_append, List.sum_cons]
    omega
  unfold proceed at hp
  cases hs : x.stage with
  | waiting =>
    simp only [hs, Option.some.injEq] at hp
    subst hp
    exact hset _ (left_start _ hs)
  | under c =>
    simp only [hs] at hp
    cases hq : c.need with
    | ask q =>
      simp only [hq, Option.some.injEq] at hp
      subst hp
      exact hset _ (left_answered _ _ hs hq)
    | turn ticket => simp only [hq, reduceCtorEq] at hp
    | hand key a data => simp only [hq, reduceCtorEq] at hp
  | ended => simp only [hs, reduceCtorEq] at hp

/-- **Whatever has happened, the calls can all come to their end**, and no more than `left` turns
are left to them. -/
theorem exists_goes (hc : Clear es t) (h : s.Settling es t own) :
    ∃ is s', s.goes is = some s' ∧ is.length ≤ s.left ∧ ∀ x ∈ s'.entrants, x.stage = .ended := by
  induction hl : s.left using Nat.strong_induction_on generalizing s with
  | _ l ih =>
    by_cases hover : ∀ x ∈ s.entrants, x.stage = .ended
    · exact ⟨[], s, rfl, Nat.zero_le _, hover⟩
    · simp only [not_forall] at hover
      obtain ⟨x, hx, hne⟩ := hover
      obtain ⟨i, hi⟩ := List.mem_iff_getElem?.1 hx
      obtain ⟨s₁, hgo, hw⟩ := exists_went hc h hi hne
      have hlt := left_go hgo
      obtain ⟨is, s', hgoes, hle, hover⟩ := ih _ (hl ▸ hlt) (h.went hc hw) rfl
      refine ⟨i :: is, s', Option.bind_eq_some_iff.2 ⟨s₁, hgo, hgoes⟩, ?_, hover⟩
      rw [List.length_cons]
      omega

end Crowd

end Discovery.Registry
