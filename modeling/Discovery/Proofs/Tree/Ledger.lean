import Discovery.Proofs.Tree.Owed
import Mathlib.Data.List.Induction
import Mathlib.Logic.Relation

/-!
# The calls that are owed and made

While a listener is called it may act itself, and what it does then owes calls of its own, which
are made while others from before are still owed; in the meantime nodes, watches and sessions may
have changed.  A ledger writes down what was done to a server, which calls are owed and which were
made, each with the number of the act that owes it.

* `Next`, `Runs`: the next thing that happens is an act, or a call that is owed; acts may come at
  any time, also while a listener is called.
* `made_append_owed_perm`: what was made and what is still owed is together what the acts owe.
* `line`, `count_line`: so in the line of both there is each call that an act owes, once.
* `count_told`: when nothing is owed any longer, whoever is called with an event is called with it
  as often as an act owes it this call.
* `accounted_of_runs`: when nothing is owed any longer, each listener got one call for what each
  act did to a path that it watched, and no other.
-/

namespace Discovery.Tree.Server

/-- A server with what was done to it, each act with the server that it met, and the calls that
are owed and that were made, each with the number of its act. -/
structure Ledger where
  server : Server
  acts : List (Server × Act)
  owed : List (Nat × Delivery)
  made : List (Nat × Delivery)

namespace Ledger

def blank : Ledger :=
  ⟨∅, [], [], []⟩

/-- An act is done, and the calls for it are owed from now on. -/
def act (k : Ledger) (a : Act) : Ledger where
  server := (k.server.act a).1
  acts := k.acts ++ [(k.server, a)]
  owed := (k.server.act a).2.map (k.acts.length, ·) ++ k.owed
  made := k.made

/-- A call is begun, and is owed no longer. -/
def call (k : Ledger) (m : Nat × Delivery) : Ledger :=
  { k with
    owed := k.owed.erase m
    made := k.made ++ [m] }

/-- **What may happen next**: somebody acts, perhaps a listener that is being called, or a call
that is owed is begun. -/
inductive Next : Ledger → Ledger → Prop
  | act {k : Ledger} (a : Act) : Next k (k.act a)
  | call {k : Ledger} {m : Nat × Delivery} (owed : m ∈ k.owed) : Next k (k.call m)

abbrev Leads : Ledger → Ledger → Prop :=
  Relation.ReflTransGen Next

/-- A ledger to which a server and its listeners may have come from the beginning. -/
def Runs (k : Ledger) : Prop :=
  Leads blank k

variable {k k' : Ledger} {i : Nat} {d : Delivery}

/-! ### What is written down -/

/-- The calls that acts owe, each with the number of its act. -/
def due (acts : List (Server × Act)) : List (Nat × Delivery) :=
  acts.zipIdx.flatMap fun x => (x.1.1.act x.1.2).2.map (x.2, ·)

theorem due_append (acts : List (Server × Act)) (v : Server) (a : Act) :
    due (acts ++ [(v, a)]) = due acts ++ (v.act a).2.map (acts.length, ·) := by
  simp [due, List.zipIdx_append]

theorem count_map_number (n : Nat) (ds : List Delivery) :
    (ds.map (n, ·)).count (i, d) = if i = n then ds.count d else 0 := by
  by_cases hi : i = n
  · have hinj : Function.Injective fun d : Delivery => (i, d) := by
      intro d d' hdd
      exact (Prod.mk.inj hdd).2
    rw [← hi, if_pos rfl, List.count_map_of_injective _ _ hinj]
  · rw [if_neg hi]
    refine List.count_eq_zero_of_not_mem fun hmem => ?_
    obtain ⟨_, _, heq⟩ := List.mem_map.1 hmem
    exact hi (Prod.mk.inj heq).1.symm

theorem count_due (acts : List (Server × Act)) : (due acts).count (i, d) =
    match acts[i]? with
    | some (v, a) => (v.act a).2.count d
    | none => 0 := by
  induction acts using List.reverseRecOn with
  | nil => rfl
  | append_singleton acts x ih =>
    obtain ⟨v, a⟩ := x
    rw [due_append, List.count_append, ih, count_map_number]
    rcases Nat.lt_trichotomy i acts.length with hlt | rfl | hgt
    · rw [if_neg (Nat.ne_of_lt hlt), List.getElem?_append_left hlt, Nat.add_zero]
    · simp
    · have hlast : (acts ++ [(v, a)]).length ≤ i := by
        rw [List.length_append]
        exact hgt
      rw [if_neg (Nat.ne_of_gt hgt), List.getElem?_eq_none (Nat.le_of_lt hgt),
        List.getElem?_eq_none hlast]

theorem map_snd_due (acts : List (Server × Act)) :
    (due acts).map (·.2) = acts.flatMap fun x => (x.1.act x.2).2 := by
  induction acts using List.reverseRecOn with
  | nil => rfl
  | append_singleton acts x ih =>
    rw [due_append, List.map_append, ih, List.flatMap_append]
    simp [Function.comp_def]

/-! ### What happens to a ledger -/

/-- The trees of the server hang together, now and whenever an act met it. -/
structure Holds (k : Ledger) : Prop where
  now : k.server.tree.Holds
  met : ∀ x ∈ k.acts, x.1.tree.Holds

theorem Holds.next (h : k.Holds) (hn : Next k k') : k'.Holds := by
  cases hn with
  | act a =>
    refine ⟨holds_act h.now a, fun x hx => ?_⟩
    rcases List.mem_append.1 hx with hx | hx
    · exact h.met x hx
    · rw [List.mem_singleton.1 hx]
      exact h.now
  | call owed => exact ⟨h.now, h.met⟩

theorem Runs.holds (h : k.Runs) : k.Holds := by
  induction h with
  | refl => exact ⟨sound_empty, fun x hx => nomatch hx⟩
  | tail _ hn ih => exact ih.next hn

theorem perm_next (h : (k.made ++ k.owed).Perm (due k.acts)) (hn : Next k k') :
    (k'.made ++ k'.owed).Perm (due k'.acts) := by
  cases hn with
  | act a =>
    have hnew : (k.made ++ ((k.server.act a).2.map (k.acts.length, ·) ++ k.owed)).Perm
        (k.made ++ k.owed ++ (k.server.act a).2.map (k.acts.length, ·)) := by
      rw [List.append_assoc]
      exact List.perm_append_comm.append_left k.made
    show (k.made ++ (_ ++ k.owed)).Perm (due (k.acts ++ [(k.server, a)]))
    rw [due_append]
    exact hnew.trans (h.append_right _)
  | @call m owed =>
    have hmoved : (k.made ++ [m] ++ k.owed.erase m).Perm (k.made ++ k.owed) := by
      rw [List.append_assoc, List.singleton_append]
      exact (List.perm_cons_erase owed).symm.append_left k.made
    exact hmoved.trans h

/-- **What was made and what is still owed is together what the acts owe**, whatever happened
between the acts and the calls. -/
theorem made_append_owed_perm (h : k.Runs) : (k.made ++ k.owed).Perm (due k.acts) := by
  induction h with
  | refl => exact List.Perm.nil
  | tail _ hn ih => exact perm_next ih hn

/-! ### The line of calls -/

/-- The calls that were made, and behind them those that are owed. -/
def line (k : Ledger) : List (Nat × Delivery) :=
  k.made ++ k.owed

/-- At any time, what an act owes stands in the line once, and nothing else does. -/
theorem count_line (h : k.Runs) {v : Server} {a : Act} (hact : k.acts[i]? = some (v, a))
    (d : Delivery) : (v.Owes a d → k.line.count (i, d) = 1) ∧
      (¬ v.Owes a d → k.line.count (i, d) = 0) := by
  have hmet := h.holds.met (v, a) (List.mem_of_getElem? hact)
  unfold line
  rw [(made_append_owed_perm h).count_eq, count_due, hact]
  exact count_act hmet a d

theorem mem_line_iff (h : k.Runs) :
    (i, d) ∈ k.line ↔ ∃ v a, k.acts[i]? = some (v, a) ∧ v.Owes a d := by
  rw [← List.count_pos_iff]
  cases hact : k.acts[i]? with
  | none =>
    unfold line
    rw [(made_append_owed_perm h).count_eq, count_due, hact]
    simp
  | some x =>
    obtain ⟨hone, hzero⟩ := count_line h hact d
    constructor
    · intro hpos
      refine ⟨x.1, x.2, rfl, ?_⟩
      by_contra howes
      have := hzero howes
      omega
    · rintro ⟨v, a, hx, howes⟩
      cases hx
      have := hone howes
      omega

theorem nodup_line (h : k.Runs) : k.line.Nodup := by
  rw [List.nodup_iff_count_le_one]
  rintro ⟨i, d⟩
  by_cases hmem : (i, d) ∈ k.line
  · obtain ⟨v, a, hact, howes⟩ := (mem_line_iff h).1 hmem
    exact Nat.le_of_eq ((count_line h hact d).1 howes)
  · rw [List.count_eq_zero_of_not_mem hmem]
    exact Nat.zero_le 1

/-! ### When all calls are made -/

theorem made_perm (h : k.Runs) (hend : k.owed = []) : k.made.Perm (due k.acts) := by
  have hperm := made_append_owed_perm h
  rwa [hend, List.append_nil] at hperm

open Classical in
theorem count_told (h : k.Runs) (hend : k.owed = []) (d : Delivery) :
    (k.made.map (·.2)).count d = k.acts.countP fun x => x.1.Owes x.2 d := by
  have hmet := h.holds.met
  rw [((made_perm h hend).map _).count_eq, map_snd_due, List.count_flatMap]
  generalize k.acts = acts at hmet ⊢
  induction acts with
  | nil => rfl
  | cons x acts ih =>
    have hone := count_act (hmet x List.mem_cons_self) x.2 d
    have hrest := ih fun y hy => hmet y (List.mem_cons_of_mem x hy)
    rw [List.map_cons, List.sum_cons, hrest, List.countP_cons]
    by_cases howes : x.1.Owes x.2 d
    · simp [howes, hone.1 howes, Nat.add_comm]
    · simp [howes, hone.2 howes]

/-- **Every call is accounted for.**  When no call is owed any longer, then for each act that was
done, at any time, each listener that watched what it changed got one call with what the act did,
though it may have been taken off the path or its session may have ended meanwhile; nobody else
got one for it, nor did anybody get one for an act that failed or changed nothing; and each call
that was made is one of these. -/
theorem accounted_of_runs (h : k.Runs) (hend : k.owed = []) :
    (∀ i v a, k.acts[i]? = some (v, a) → ∀ d,
      (v.Owes a d → k.made.count (i, d) = 1) ∧ (¬ v.Owes a d → k.made.count (i, d) = 0)) ∧
    ∀ m ∈ k.made, ∃ v a, k.acts[m.1]? = some (v, a) ∧ v.Owes a m.2 := by
  have hcount : ∀ i d, k.made.count (i, d) = (due k.acts).count (i, d) :=
    fun i d => (made_perm h hend).count_eq (i, d)
  have heach : ∀ i v a, k.acts[i]? = some (v, a) → ∀ d,
      (v.Owes a d → k.made.count (i, d) = 1) ∧ (¬ v.Owes a d → k.made.count (i, d) = 0) := by
    intro i v a hact d
    have hholds := h.holds.met (v, a) (List.mem_of_getElem? hact)
    rw [hcount, count_due, hact]
    exact count_act hholds a d
  refine ⟨heach, fun m hm => ?_⟩
  have hpos : 0 < k.made.count (m.1, m.2) := List.count_pos_iff.2 hm
  cases hact : k.acts[m.1]? with
  | none =>
    rw [hcount, count_due, hact] at hpos
    exact absurd hpos (Nat.lt_irrefl 0)
  | some x =>
    obtain ⟨v, a⟩ := x
    refine ⟨v, a, rfl, ?_⟩
    by_contra howes
    have hzero := (heach m.1 v a hact m.2).2 howes
    omega

/-- Two listeners watch a path through two sessions, and a node is created there.  The one that is
called first closes the session of the other one and writes to the node, before the other one is
called. -/
def crossed : Ledger :=
  let k := (blank.act .connect).act .connect
  let k := k.act (.request 1 (.watch "/a" (.named "l")))
  let k := k.act (.request 2 (.watch "/a" (.named "m")))
  let k := k.act (.request 1 (.create "/a" [1] .persistent))
  let k := k.call (4, ⟨.named "l", .changed "/a" [1]⟩)
  let k := (k.act (.close 2)).act (.write "/a" [2])
  let k := k.call (6, ⟨.named "l", .changed "/a" [2]⟩)
  k.call (4, ⟨.named "m", .changed "/a" [1]⟩)

theorem runs_crossed : crossed.Runs := by
  refine .tail (.tail (.tail (.tail (.tail (.tail (.tail (.tail (.tail (.tail .refl
    (.act _)) (.act _)) (.act _)) (.act _)) (.act _)) (.call ?_)) (.act _)) (.act _)) (.call ?_))
    (.call ?_) <;> decide

/-- The second listener is told of the creation, and not of the writing. -/
theorem accounted_of_crossed : crossed.Runs ∧ crossed.owed = [] ∧
    crossed.made = [(4, ⟨.named "l", .changed "/a" [1]⟩), (6, ⟨.named "l", .changed "/a" [2]⟩),
      (4, ⟨.named "m", .changed "/a" [1]⟩)] ∧
    (∀ i v a, crossed.acts[i]? = some (v, a) → ∀ d,
      (v.Owes a d → crossed.made.count (i, d) = 1) ∧
        (¬ v.Owes a d → crossed.made.count (i, d) = 0)) ∧
    ∀ m ∈ crossed.made, ∃ v a, crossed.acts[m.1]? = some (v, a) ∧ v.Owes a m.2 := by
  have hend : crossed.owed = [] := by decide
  have hmade : crossed.made = [(4, ⟨.named "l", .changed "/a" [1]⟩),
      (6, ⟨.named "l", .changed "/a" [2]⟩), (4, ⟨.named "m", .changed "/a" [1]⟩)] := by decide
  exact ⟨runs_crossed, hend, hmade, accounted_of_runs runs_crossed hend⟩

end Ledger

end Discovery.Tree.Server
