import Discovery.Proofs.Registry.Settling
import Mathlib.Data.List.Nodup

/-!
# What a crowd comes to

However the calls of a crowd take turns, when all of them are over they have come to the same end,
up to which one of the calls to a target its node is of (`Settled`).

* `Tally`: the registries count the calls that have failed, and nothing else.
* `settled_of_runs`: what the tree, the calls and the counters are in the end.
-/

namespace Discovery.Registry

open Discovery.Tree (Node Request Reply Server SessionId)
open Discovery.Tree.Path (ancestors)

namespace Nodes

variable {p : Publication} {r : Nodes} {ns ns' : Table Node} {b : Bool}
  {replies : List (Request × Reply)} {st : Step Nodes Call}

theorem Turn.failures (h : Turn p r ns b replies ns' st) :
    st.registry.failures "register" = r.failures "register" + if st.log.isEmpty then 0 else 1 := by
  cases h with
  | meet present =>
    rw [failures_fail, if_pos rfl]
    rfl
  | _ => exact (UInt64.add_zero _).symm

end Nodes

namespace Crowd

variable {es : List Errand} {t : Tree} {own : Nat → SessionId} {s s' : Crowd}

/-- The number of the calls through a registry that have failed. -/
def failedOf (s : Crowd) (k : Nat) : Nat :=
  s.entrants.countP fun x => x.errand.registry == k && x.failed

/-- **Each registry has counted the calls that have failed**, beside those of before. -/
def Tally (rs : Nat → Nodes) (s : Crowd) : Prop :=
  ∀ k, (s.registries k).failures "register" =
    (rs k).failures "register" + .ofNat (s.failedOf k)

theorem tally_gather (v : Server) (rs : Nat → Nodes) (es : List Errand) :
    (gather v rs es).Tally rs := by
  intro k
  have hzero : (gather v rs es).failedOf k = 0 := by
    unfold failedOf
    rw [List.countP_eq_zero]
    intro x hx
    obtain ⟨e, _, rfl⟩ := List.mem_map.1 hx
    simp [Entrant.failed, Entrant.waiting]
  rw [hzero]
  exact (UInt64.add_zero _).symm

theorem Tally.went {rs : Nat → Nodes} (h : s.Tally rs) (hw : s.Went s') : s'.Tally rs := by
  obtain ⟨a, b, x, name, replies, st, hbefore, hafter, hr, _, hidle, ht⟩ := hw
  intro k
  have hlog : x.log = [] := by simpa [Entrant.failed] using hidle.failed
  have hfailed : (x.after replies st).failed = !st.log.isEmpty := by
    simp [Entrant.failed, Entrant.after, hlog]
  have hcount : s'.failedOf k = s.failedOf k +
      if x.errand.registry == k && !st.log.isEmpty then 1 else 0 := by
    unfold failedOf
    rw [hbefore, hafter, List.countP_append, List.countP_append, List.countP_cons,
      List.countP_cons, hidle.failed, hfailed, Bool.and_false]
    exact (Nat.add_assoc _ _ _).symm
  rw [hcount, hr]
  by_cases hk : k = x.errand.registry
  · subst hk
    rw [Function.update_self, ht.failures, h]
    cases st.log.isEmpty <;> simp [UInt64.ofNat_add, UInt64.add_assoc]
  · have hne : (x.errand.registry == k) = false := beq_eq_false_iff_ne.2 (Ne.symm hk)
    rw [Function.update_of_ne hk, h, hne]
    rfl

theorem Tally.runs {rs : Nat → Nodes} (hc : Clear es t) (hs : s.Settling es t own)
    (h : s.Tally rs) (hrun : Runs s s') : s'.Tally rs := by
  induction hrun with
  | refl => exact h
  | tail hrun hnext ih =>
    cases hnext with
    | go i hgo => exact ih.went (went_of_go hc (hs.runs hc hrun) hgo)
    | aside ha => exact fun k => (ha.failures k).trans (ih k)

/-! ### The end -/

/-- **What a crowd comes to** that has set out from a server and registries. -/
structure Settled (v : Server) (rs : Nat → Nodes) (s : Crowd) : Prop where
  /-- A node that is neither a target nor above one is as it was. -/
  rest : ∀ q, (∀ x ∈ s.entrants, q ≠ x.errand.target ∧ q ∉ ancestors x.errand.target) →
    s.nodes.get? q = v.tree.nodes.get? q
  /-- Above the targets stand nodes that stay, with their data if they had some. -/
  way : ∀ x ∈ s.entrants, ∀ q ∈ ancestors x.errand.target,
    s.nodes.get? q = some ⟨(v.tree.data? q).getD [], none⟩
  /-- At each target stands the node of a call that has not failed. -/
  leaf : ∀ x ∈ s.entrants, ∃ y ∈ s.entrants, y.errand.target = x.errand.target ∧
    y.failed = false ∧
    s.nodes.get? x.errand.target = some (y.errand.node (rs y.errand.registry).session)
  /-- Those calls have failed that met a node which they were to create. -/
  failed_iff : ∀ x ∈ s.entrants, x.failed = true ↔ x.Met
  /-- The registries have counted these failures. -/
  counted : s.Tally rs
  /-- With targets of their own no calls fail. -/
  distinct : (s.entrants.map (·.errand.target)).Nodup → ∀ x ∈ s.entrants, x.failed = false

theorem Settling.way_of_over (h : s.Settling es t own) {x : Entrant}
    (hx : x ∈ s.entrants) (hthere : s.nodes.contains x.errand.target = true) {q : String}
    (hq : q ∈ ancestors x.errand.target) :
    s.nodes.get? q = some ⟨(t.data? q).getD [], none⟩ := by
  have hway : OnWay es q := ⟨x.errand, h.mem_errands hx, hq⟩
  obtain ⟨n, hn⟩ := Option.isSome_iff_exists.1 hthere
  obtain ⟨m, hm, ho⟩ := h.kept.sound.ancestors hn hq
  rw [hm]
  rcases h.kept.way q hway with hold | ⟨hnone, hnew⟩
  · rw [Tree.data?, ← hold, hm]
    exact congrArg some (congrArg (Node.mk m.data) ho)
  · rw [Tree.data?, hnone]
    exact hm.symm.trans hnew

/-- **However registrations at the same time take turns, they come to the same end**: the rest of
the tree is as it was, the nodes above the targets are there and stay, at each target stands the
node of one of its calls, and only those calls have failed that met a node of another one when they
were to create theirs. -/
theorem settled_of_runs {v : Server} {ds : List Tree.Delivery} {rs : Nat → Nodes}
    (hv : Server.Reaches v ds) (hopen : ∀ e ∈ es, v.Alive (rs e.registry).session)
    (hclear : Clear es v.tree) (hrun : Runs (gather v rs es) s)
    (hover : ∀ x ∈ s.entrants, x.stage = .ended) :
    s.entrants.map (·.errand) = es ∧ s.Settled v rs := by
  have h₀ := Settling.gather hv hopen
  have h := h₀.runs hclear hrun
  have hfits : ∀ x ∈ s.entrants, x.Succeeded ∧ ¬ x.Met ∧ x.failed = false ∨
      x.Met ∧ ¬ x.Succeeded ∧ x.failed = true := by
    intro x hx
    have hf := h.fits x hx
    unfold Entrant.Fits at hf
    rwa [hover x hx] at hf
  have hthere : ∀ x ∈ s.entrants, s.nodes.contains x.errand.target = true := fun x hx =>
    (h.there x hx).resolve_right fun ⟨y, hy, _, hne⟩ => hne (hover y hy)
  have hiff : ∀ x ∈ s.entrants, x.failed = true ↔ x.Met := by
    intro x hx
    rcases hfits x hx with ⟨_, hm, hf⟩ | ⟨hm, _, hf⟩
    · exact ⟨fun ht => (nomatch hf.symm.trans ht), fun hmet => absurd hmet hm⟩
    · exact ⟨fun _ => hm, fun _ => hf⟩
  refine ⟨h.errands, fun q hq => ?_, fun x hx q hq => h.way_of_over hx (hthere x hx) hq,
    fun x hx => ?_, hiff, (tally_gather v rs es).runs hclear h₀ hrun, fun hnodup x hx => ?_⟩
  · refine h.kept.rest q ?_ ?_ <;> rw [← h.errands]
    · rintro ⟨e, he, rfl⟩
      obtain ⟨x, hx, rfl⟩ := List.mem_map.1 he
      exact (hq x hx).1 rfl
    · rintro ⟨e, he, hmem⟩
      obtain ⟨x, hx, rfl⟩ := List.mem_map.1 he
      exact (hq x hx).2 hmem
  · obtain ⟨n, hn⟩ := Option.isSome_iff_exists.1 (hthere x hx)
    have hcl : x.cleared = true := by
      unfold Entrant.cleared
      rw [hover x hx]
    obtain ⟨y, hy, hyx, hs, rfl⟩ := h.made x hx hcl n hn
    exact ⟨y, hy, hyx, ((h.fits y hy).failed_of_succeeded hs).2, hn⟩
  · rw [Bool.eq_false_iff]
    intro hf
    obtain ⟨y, hy, hyx, hs⟩ := h.rival x hx ((hiff x hx).1 hf)
    obtain rfl := List.inj_on_of_nodup_map hnodup hy hx hyx
    exact ((h.fits y hy).failed_of_succeeded hs).1 ((hiff y hy).1 hf)

/-- A server with two sessions and a node that has data. -/
def shared : Server :=
  let v := ((∅ : Server).act .connect).1
  let v := (v.act .connect).1
  (v.act (.request 1 (.create "/a" [7] .persistent))).1

/-- Two registries, each on a session of its own. -/
def pair (k : Nat) : Nodes := .new k (if k = 0 then 1 else 2)

/-- Both registries are to register an endpoint at `/a/b`, and one of them another at `/c/d`. -/
def rivals : List Errand :=
  [⟨0, ⟨"h", 1, ["a", "b"], ∅⟩, default, true⟩, ⟨1, ⟨"h", 2, ["a", "b"], ∅⟩, default, true⟩,
    ⟨0, ⟨"h", 1, ["c", "d"], ∅⟩, default, false⟩]

/-- Two calls go side by side up to where they create their node. -/
def abreast : List Nat :=
  [0, 1, 0, 1, 0, 1, 2, 0, 1, 2, 2, 2, 2]

theorem settled_of_abreast : ∃ s, (gather shared pair rivals).goes abreast = some s ∧
    s.entrants.map (·.failed) = [false, true, false] ∧ s.Settled shared pair := by
  have hreach : Server.Reaches shared [] :=
    .act (.request 1 (.create "/a" [7] .persistent))
      (.act .connect (.act .connect .start trivial) trivial) ⟨by decide, by decide⟩
  obtain ⟨s, hs, hfailed, hover⟩ : ∃ s, (gather shared pair rivals).goes abreast = some s ∧
      s.entrants.map (·.failed) = [false, true, false] ∧ ∀ x ∈ s.entrants, x.stage = .ended :=
    ⟨_, rfl, by decide, by decide⟩
  have hclear : Clear rivals shared.tree :=
    ⟨by decide, by decide, by decide, by decide⟩
  have hopen : ∀ e ∈ rivals, shared.Alive (pair e.registry).session := by
    show ∀ e ∈ rivals, (1 ≤ (pair e.registry).session ∧
      (pair e.registry).session ≤ shared.opened) ∧
        shared.isClosed (pair e.registry).session = false
    decide
  exact ⟨s, hs, hfailed, (settled_of_runs hreach hopen hclear (runs_of_goes hs) hover).2⟩

end Crowd

end Discovery.Registry
