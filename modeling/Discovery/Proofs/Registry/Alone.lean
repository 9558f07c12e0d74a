import Discovery.Proofs.Registry.Crowd
import Discovery.Proofs.Registry.Effect
import Discovery.Proofs.Tree.Ancestors
import Discovery.Proofs.Tree.Reach

/-!
# A call that runs alone

While a call runs alone, the server changes by its requests only.  The listeners that these reach
tell consumers, which changes neither the server nor the failures that are counted.

* `Alone`: a call begins and goes on until it is over, and nothing else happens.
* `Ends`: from where a call stands, with which server and which failures it ends.
* `ends_of_goOn`, `ends_of_finish`, `ends_of_fail`: what one request contributes to this.
-/

namespace Discovery.Registry

open Discovery.Tree (Delivery Reply Request Server)

namespace Interplay

variable {s u x : Interplay} {n : Nat} {v v₁ v' : Server} {c c₁ : Nodes.Call} {q : Request}
  {reply : Reply} {ds : List Delivery} {failed : List String}

/-! ### What telling does not change -/

theorem failures_tell (key : String) (data : Payload) (s : Interplay) (op : String) :
    (((host key).tell key data s).1).registry.failures op = s.registry.failures op := by
  unfold Host.tell
  split
  · rfl
  · dsimp only
    rw [deliverAll_eq]
    rfl

theorem failures_hear (d : Delivery) (s : Interplay) (op : String) :
    (s.hear d).registry.failures op = s.registry.failures op := by
  unfold hear
  split
  · split
    · split
      · exact failures_tell ..
      · rfl
    · rfl
  · rfl

theorem failures_hearAll (op : String) : ∀ (ds : List Delivery) (s : Interplay),
    (s.hearAll ds).registry.failures op = s.registry.failures op := by
  intro ds
  induction ds with
  | nil => intro s; rfl
  | cons d ds ih =>
    intro s
    exact (ih (s.hear d)).trans (failures_hear d s op)

/-! ### Going on -/

/-- A call begins and goes on until it is over, and nothing else happens. -/
def Alone (s : Interplay) (n : Nat) (a : Action) (s' : Interplay) : Prop :=
  ∃ k, s.run (.start n a :: List.replicate k (.go n)) = some s' ∧ s'.calls n = none

/-- What is known of a state in which a call stands at `c`, or is over: the server, and that the
registry of `s` has counted the failures of a list of operations since. -/
structure At (s : Interplay) (n : Nat) (v : Server) (c : Option Nodes.Call) (failed : List String)
    (u : Interplay) : Prop where
  server : u.server = v
  session : u.registry.session = s.registry.session
  failures : ∀ op, u.registry.failures op = s.registry.failures op + .ofNat (failed.count op)
  call : u.calls n = c

/-- **A call that stands at `c` comes to its end**, with a server and with failures. -/
def Ends (s : Interplay) (n : Nat) (v : Server) (c : Nodes.Call) (v' : Server)
    (failed : List String) : Prop :=
  ∀ u, s.At n v (some c) [] u →
    ∃ k u', u.run (List.replicate k (.go n)) = some u' ∧ s.At n v' none failed u'

theorem At.asked (h : s.At n v (some c) [] u) (hneed : c.need = .ask q)
    (hans : v.answer s.registry.session q = (v₁, reply, ds)) :
    ∃ w : Interplay, s.At n v₁ (some c) [] w ∧
      u.step (.go n) = some (w.take n (w.registry.answered c reply)) := by
  have hserver : u.server.answer u.registry.session q = (v₁, reply, ds) := by
    rw [h.server, h.session, hans]
  have hask : u.ask u.registry.session q = (({ u with server := v₁ } : Interplay).hearAll ds,
      reply) := by
    unfold ask
    rw [hserver]
  obtain ⟨m, hm⟩ := told_hearAll ds { u with server := v₁ }
  refine ⟨({ u with server := v₁ } : Interplay).hearAll ds, ⟨?_, ?_, fun op => ?_, ?_⟩, ?_⟩
  · rw [hm]
  · rw [hm]
    exact h.session
  · rw [failures_hearAll]
    exact h.failures op
  · rw [hm]
    exact h.call
  · show (u.calls n).map (u.go n) = _
    rw [h.call, Option.map_some, go_ask hneed, hask]

/-- **A request after which the call goes on.** -/
theorem ends_of_goOn (hneed : c.need = .ask q)
    (hans : v.answer s.registry.session q = (v₁, reply, ds))
    (hgo : ∀ r : Nodes, r.answered c reply = r.goOn c₁) (h : s.Ends n v₁ c₁ v' failed) :
    s.Ends n v c v' failed := by
  intro u hu
  obtain ⟨w, hw, hstep⟩ := hu.asked hneed hans
  have hnext : s.At n v₁ (some c₁) [] (w.take n (w.registry.goOn c₁)) :=
    ⟨hw.server, hw.session, hw.failures, Function.update_self ..⟩
  obtain ⟨k, u', hrun, hend⟩ := h _ hnext
  refine ⟨k + 1, u', ?_, hend⟩
  rw [List.replicate_succ, run_cons, hstep, hgo]
  exact hrun

/-- **A request after which the call is over.** -/
theorem ends_of_finish (hneed : c.need = .ask q)
    (hans : v.answer s.registry.session q = (v₁, reply, ds))
    (hgo : ∀ r : Nodes, r.answered c reply = r.finish) : s.Ends n v c v₁ [] := by
  intro u hu
  obtain ⟨w, hw, hstep⟩ := hu.asked hneed hans
  refine ⟨1, w.take n w.registry.finish, ?_,
    ⟨hw.server, hw.session, hw.failures, Function.update_self ..⟩⟩
  rw [List.replicate_one, run_cons, hstep, hgo]
  rfl

theorem ofNat_count_singleton (operation op : String) :
    UInt64.ofNat ([operation].count op) = if op = operation then 1 else 0 := by
  rw [List.count_singleton]
  by_cases hop : op = operation
  · simp [hop]
  · simp [hop, Ne.symm hop]

/-- **A request after which the call has failed.** -/
theorem ends_of_fail {operation name : String} {why : Failure} (hneed : c.need = .ask q)
    (hans : v.answer s.registry.session q = (v₁, reply, ds))
    (hgo : ∀ r : Nodes, r.answered c reply = r.fail operation name why) :
    s.Ends n v c v₁ [operation] := by
  intro u hu
  obtain ⟨w, hw, hstep⟩ := hu.asked hneed hans
  refine ⟨1, w.take n (w.registry.fail operation name why), ?_,
    ⟨hw.server, hw.session, fun op => ?_, Function.update_self ..⟩⟩
  · rw [List.replicate_one, run_cons, hstep, hgo]
    rfl
  · have hbefore : w.registry.failures op = s.registry.failures op :=
      (hw.failures op).trans (UInt64.add_zero _)
    show (w.registry.fail operation name why).registry.failures op = _
    rw [Nodes.failures_fail, hbefore, ofNat_count_singleton]

theorem exists_alone {a : Action} (hfree : s.calls n = none)
    (hstart : s.registry.start a = s.registry.goOn c) (h : s.Ends n s.server c v' failed) :
    ∃ s', s.Alone n a s' ∧ s.At n v' none failed s' := by
  have hbegun : s.At n s.server (some c) [] (s.take n (s.registry.goOn c)) :=
    ⟨rfl, rfl, fun op => (UInt64.add_zero _).symm, Function.update_self ..⟩
  have hstep : s.step (.start n a) = some (s.take n (s.registry.goOn c)) := by
    simp only [step, hfree, hstart]
  obtain ⟨k, s', hrun, hend⟩ := h _ hbegun
  refine ⟨s', ⟨k, ?_, hend.call⟩, hend⟩
  rw [run_cons, hstep]
  exact hrun

end Interplay

end Discovery.Registry
