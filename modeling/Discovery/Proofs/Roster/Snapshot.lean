import Discovery.Proofs.Roster.Scene

/-!
# Who is called when a key is told

The consumers of a key are called by the list as it was when the telling began, whatever they do to
the roster meanwhile.  `Calls` says which calls a telling makes itself.  The calls within these
calls are not among them: they are higher up.

* `calls_deliverAll`: each consumer of a list is called once, in the order of the list.
* `calls_tell`, `calls_tellOne`: what this comes to for a key, and for one consumer of a key.
* `nodup_consumers`: no key ever has a consumer twice.
* `told_of_snapshot`: who is called when a key is told.
-/

namespace Discovery.Scene

def Entry.isAt (level : Nat) : Entry → Bool
  | .called l _ _ => l == level
  | .returned l _ => l == level
  | _ => false

/-- The entries of a call that was made and has returned. -/
def callEntries (level : Nat) (data : Payload) (x : Consumer × Outcome) : List Entry :=
  [.called level x.1 data, .returned level x.2]

/-- **Just these calls are made** from one scene to another, one after the other and with this data,
by whoever acts there.  All other calls are calls within these. -/
def Calls (s s' : Scene) (data : Payload) (calls : List (Consumer × Outcome)) : Prop :=
  ∃ new, s'.journal = s.journal ++ new ∧ (∀ e ∈ new, e.IsAbove s.level) ∧
    new.filter (Entry.isAt (s.level + 1)) = calls.flatMap (callEntries (s.level + 1) data)

def completed (calls : List (Consumer × Outcome)) : Nat :=
  calls.countP fun x => decide (x.2 = .completed)

variable {s s' s'' : Scene} {act : Scene → Consumer → Payload → Scene × Outcome} {kind key : String}
  {data : Payload} {calls calls' : List (Consumer × Outcome)}

/-! ### Calls one after the other -/

theorem Entry.isAt_of_isAbove {e : Entry} {level : Nat} (h : e.IsAbove level) :
    e.isAt level = false := by
  cases e with
  | called l | returned l => exact beq_false_of_ne (Nat.ne_of_gt h)
  | attached | detached => rfl

theorem calls_nil (s : Scene) (data : Payload) : Calls s s data [] :=
  ⟨[], (List.append_nil _).symm, nofun, rfl⟩

theorem Calls.append (h : Calls s s' data calls) (hlevel : s'.level = s.level)
    (h' : Calls s' s'' data calls') : Calls s s'' data (calls ++ calls') := by
  obtain ⟨new, hnew, habove, hcalls⟩ := h
  obtain ⟨new', hnew', habove', hcalls'⟩ := h'
  rw [hlevel] at habove' hcalls'
  refine ⟨new ++ new', ?_, ?_, ?_⟩
  · rw [hnew', hnew, List.append_assoc]
  · intro e he
    exact (List.mem_append.1 he).elim (habove e) (habove' e)
  · rw [List.filter_append, List.flatMap_append, hcalls, hcalls']

/-- What is called while a call is under way is not at its level. -/
theorem calls_call (hact : ∀ s c data, Course s (act s c data).1) (c : Consumer) (data : Payload)
    (s : Scene) : Calls s ((host act).call c data s).1 data
      [(c, ((host act).call c data s).2)] := by
  obtain ⟨inner, hjournal, hinner⟩ := journal_call hact c data s
  have hnone : inner.filter (Entry.isAt (s.level + 1)) = [] :=
    List.filter_eq_nil_iff.2 fun e he => by
      rw [Entry.isAt_of_isAbove (hinner e he)]
      exact Bool.false_ne_true
  obtain ⟨new, hnew, habove⟩ := (course_call hact c data s).journal
  obtain rfl := List.append_cancel_left (hnew.symm.trans hjournal)
  refine ⟨_, hnew, habove, ?_⟩
  rw [List.filter_cons_of_pos (by simp [Entry.isAt]), List.filter_append, hnone]
  simp [callEntries, Entry.isAt]

theorem deliver_eq (key : String) (data : Payload) (c : Consumer) (s : Scene) :
    (host act).deliver key data c s = (((host act).call c data s).1,
      decide (((host act).call c data s).2 = .completed)) := by
  unfold Host.deliver
  cases hcall : (host act).call c data s with
  | mk s' o => cases o <;> rfl

/-- **Each consumer of a list is called once**, in the order of the list, and a panic keeps nobody
from being called.  The answer is the number of calls that completed. -/
theorem calls_deliverAll (hact : ∀ s c data, Course s (act s c data).1) (key : String)
    (data : Payload) : ∀ (cs : List Consumer) (s : Scene), ∃ calls,
      calls.map Prod.fst = cs ∧ Calls s ((host act).deliverAll key data cs s).1 data calls ∧
        ((host act).deliverAll key data cs s).2 = completed calls := by
  intro cs
  induction cs with
  | nil => exact fun s => ⟨[], rfl, calls_nil s data, rfl⟩
  | cons c cs ih =>
    intro s
    obtain ⟨calls, hcs, hcalls, hcount⟩ := ih ((host act).call c data s).1
    have hfirst := calls_call hact c data s
    have hlevel := (course_call hact c data s).level
    refine ⟨(c, ((host act).call c data s).2) :: calls, ?_, ?_, ?_⟩
    · rw [List.map_cons, hcs]
    · unfold Host.deliverAll
      rw [deliver_eq]
      exact hfirst.append hlevel hcalls
    · unfold Host.deliverAll completed
      rw [deliver_eq, List.countP_cons]
      dsimp only
      rw [hcount]
      split <;> rfl

/-! ### Who is called -/

theorem calls_tell (hact : ∀ s c data, Course s (act s c data).1) (key : String) (data : Payload)
    (s : Scene) : ∃ calls, calls.map Prod.fst = s.roster.consumers key ∧
      Calls s ((host act).tell key data s).1 data calls ∧
      ((host act).tell key data s).2 = completed calls := by
  unfold Host.tell
  cases hcs : ((host act).roster s).attached.get? key with
  | none =>
    have hnobody : s.roster.consumers key = [] := congrArg (·.getD []) hcs
    exact ⟨[], hnobody.symm, calls_nil s data, rfl⟩
  | some cs =>
    have hconsumers : s.roster.consumers key = cs := congrArg (·.getD []) hcs
    rw [hconsumers]
    exact calls_deliverAll hact key data cs s

/-- **One consumer is called if it is attached**, and else nobody. -/
theorem calls_tellOne (hact : ∀ s c data, Course s (act s c data).1) (key : String) (c : Consumer)
    (data : Payload) (s : Scene) : ∃ calls,
      calls.map Prod.fst = (if c ∈ s.roster.consumers key then [c] else []) ∧
      Calls s ((host act).tellOne key c data s).1 data calls ∧
      ((host act).tellOne key c data s).2.toNat = completed calls := by
  unfold Host.tellOne
  by_cases hc : c ∈ s.roster.consumers key
  · have hcontains : (((host act).roster s).consumers key).contains c = true :=
      List.contains_iff_mem.2 hc
    have hcall := calls_call hact c data s
    rw [if_pos hc, if_pos hcontains, deliver_eq]
    refine ⟨[(c, ((host act).call c data s).2)], rfl, ?_, ?_⟩
    · dsimp only
      split
      · exact hcall
      · exact hcall
    · unfold completed
      by_cases ho : ((host act).call c data s).2 = .completed <;> simp [ho]
  · have hcontains : ¬ (((host act).roster s).consumers key).contains c = true :=
      fun h => hc (List.contains_iff_mem.1 h)
    rw [if_neg hc, if_neg hcontains]
    exact ⟨[], rfl, calls_nil s data, rfl⟩

/-! ### Each of them once -/

theorem nodup_of_change (h : ∀ key, (s.roster.consumers key).Nodup) (hs : Change s s')
    (key : String) : (s'.roster.consumers key).Nodup := by
  cases hs with
  | attach k c =>
    show ((s.roster.enroll k c).1.consumers key).Nodup
    rw [Roster.enroll_eq, Roster.consumers_attach]
    split
    · split
      · exact h k
      · next hc =>
        have hnew : c ∉ s.roster.consumers k := fun hmem => hc (List.contains_iff_mem.2 hmem)
        refine List.nodup_append.2 ⟨h k, List.pairwise_singleton _ c, fun d hd e he => ?_⟩
        rw [List.mem_singleton.1 he]
        exact fun hdc => hnew (hdc ▸ hd)
    · exact h key
  | detach k c =>
    show ((s.roster.dismiss k c).1.consumers key).Nodup
    rw [Roster.dismiss_eq, Roster.consumers_detach]
    split
    · exact (h k).filter _
    · exact h key
  | enter | leave | count => exact h key

/-- **No key ever has a consumer twice.** -/
theorem nodup_consumers (hs : Changes (ofKind kind) s) (key : String) :
    (s.roster.consumers key).Nodup := by
  induction hs generalizing key with
  | refl => exact List.nodup_nil
  | tail _ hstep ih => exact nodup_of_change ih hstep key

/-- **Who is called when a key is told**: each consumer that the key had when the telling began,
once, in the order of the list and with this data, whatever any consumer that is called does to the
roster, has told or panics with.  The answer is the number of those that did not panic. -/
theorem told_of_snapshot (conduct : Conduct) (depth : Nat) (s : Scene) (key : String)
    (data : Payload) : ∃ calls : List (Consumer × Outcome),
      calls.map Prod.fst = s.roster.consumers key ∧
      Calls s ((stage conduct depth).tell key data s).1 data calls ∧
      ((stage conduct depth).tell key data s).1.level = s.level ∧
      ((stage conduct depth).tell key data s).2 = completed calls ∧
      ∀ kind, Changes (ofKind kind) s → (calls.map Prod.fst).Nodup := by
  obtain ⟨act, hstage, hact⟩ := course_stage conduct depth
  rw [hstage]
  obtain ⟨calls, hcs, hcalls, hcount⟩ := calls_tell hact key data s
  refine ⟨calls, hcs, hcalls, (course_tell hact key data s).level, hcount, ?_⟩
  intro kind hs
  rw [hcs]
  exact nodup_consumers hs key

/-- While a consumer is called it detaches the next one, attaches another one and has the key told
again, and then it panics. -/
def meddling : Conduct := fun s c _ =>
  if c = "a" ∧ s.level = 1 then
    .ask (.detach "k" "b") fun _ _ => .ask (.attach "k" "d") fun _ _ =>
      .ask (.tell "k" ∅) fun _ _ => .stop (.panicked (.text "no"))
  else .stop .completed

def threeConsumers : Scene :=
  (((ofKind "test").attach "k" "a").attach "k" "b").attach "k" "c"

/-- The consumer that was detached is called nevertheless, and the one that was attached is not; two
calls complete. -/
theorem told_of_meddling :
    ∃ calls : List (Consumer × Outcome), calls.map Prod.fst = ["a", "b", "c"] ∧
      Calls threeConsumers ((stage meddling 2).tell "k" ∅ threeConsumers).1 ∅ calls ∧
      completed calls = 2 ∧ (calls.map Prod.fst).Nodup ∧
      ((stage meddling 2).tell "k" ∅ threeConsumers).1.roster.consumers "k" = ["a", "c", "d"] := by
  obtain ⟨calls, hcs, hcalls, -, hcount, hnodup⟩ :=
    told_of_snapshot meddling 2 threeConsumers "k" ∅
  have hconsumers : threeConsumers.roster.consumers "k" = ["a", "b", "c"] := by decide
  have htwo : ((stage meddling 2).tell "k" ∅ threeConsumers).2 = 2 := by decide +kernel
  have hleft : ((stage meddling 2).tell "k" ∅ threeConsumers).1.roster.consumers "k" =
      ["a", "c", "d"] := by
    decide +kernel
  have hbegin : Changes (ofKind "test") threeConsumers :=
    .head (.attach "k" "a") (.head (.attach "k" "b") (.single (.attach "k" "c")))
  exact ⟨calls, hcs.trans hconsumers, hcalls, hcount.symm.trans htwo, hnodup "test" hbegin, hleft⟩

end Discovery.Scene
