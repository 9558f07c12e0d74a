import Discovery.Proofs.Tree.Answer

/-!
# When a request is refused

A request is made of demands that are looked at one after the other.  If all are met, it is done;
otherwise the first one that is not met says what is answered, and nothing has been done.

* `Demand`, `FirstUnmet`: demands and the first of them that is not met.
* `Server.demands`: the demands of a request.
* `Server.failed_answer_iff`: what is answered.
* `Server.done_iff_allowed`: when nodes are created, deleted and written, and what a failure leaves.
-/

namespace Discovery.Tree

/-- A demand, and what is reported if it is not met. -/
structure Demand where
  met : Prop
  otherwise : Failure

/-- The first demand of a list that is not met reports this. -/
def FirstUnmet : List Demand → Failure → Prop
  | [], _ => False
  | d :: ds, why => (¬ d.met ∧ d.otherwise = why) ∨ (d.met ∧ FirstUnmet ds why)

variable {t : Tree} {p q : String} {s : SessionId} {data : Bytes} {mode : Mode} {why : Failure}
  {l : List Demand}

theorem forall_met_or_firstUnmet (l : List Demand) :
    (∀ d ∈ l, d.met) ∨ ∃ why, FirstUnmet l why := by
  induction l with
  | nil => exact .inl (List.forall_mem_nil _)
  | cons d l ih =>
    by_cases hd : d.met
    · rcases ih with hall | ⟨why, hwhy⟩
      · exact .inl (List.forall_mem_cons.2 ⟨hd, hall⟩)
      · exact .inr ⟨why, .inr ⟨hd, hwhy⟩⟩
    · exact .inr ⟨d.otherwise, .inl ⟨hd, rfl⟩⟩

/-! ### The demands of a change -/

/-- Something stands at a path. -/
def Present (t : Tree) (p : String) : Prop :=
  ∃ n, t.nodes.get? p = some n

/-- Something stands at a path and stays there. -/
def Stays (t : Tree) (p : String) : Prop :=
  ∃ n, t.nodes.get? p = some n ∧ n.owner = none

/-- Some other node lies below a path. -/
def HasBelow (t : Tree) (p : String) : Prop :=
  ∃ q, t.Present q ∧ Path.startsWith q (Path.below p) = true

/-- The parent of a node that is not at the top has to be there and to stay. -/
def parentDemands (t : Tree) (p : String) : List Demand :=
  match Path.parent? p with
  | none => []
  | some q => [⟨t.Present q, .noNode q⟩, ⟨t.Stays q, .noChildrenForEphemerals q⟩]

def createDemands (t : Tree) (p : String) : List Demand :=
  ⟨Path.isNode p = true, .badArguments p⟩ :: ⟨¬ t.Present p, .nodeExists p⟩ :: t.parentDemands p

def deleteDemands (t : Tree) (p : String) : List Demand :=
  [⟨Path.isNode p = true, .badArguments p⟩, ⟨t.Present p, .noNode p⟩,
    ⟨¬ t.HasBelow p, .notEmpty p⟩]

def writeDemands (t : Tree) (p : String) : List Demand :=
  [⟨t.Present p, .noNode p⟩]

theorem present_iff_contains : t.Present p ↔ t.nodes.contains p = true := by
  rw [Present, Table.contains, Option.isSome_iff_exists]

theorem hasBelow_iff : t.HasBelow p ↔ t.hasChildren p = true := by
  rw [hasChildren_iff]
  constructor
  · rintro ⟨q, ⟨n, hn⟩, hq⟩
    exact ⟨q, n, hn, hq⟩
  · rintro ⟨q, n, hn, hq⟩
    exact ⟨q, ⟨n, hn⟩, hq⟩

theorem checkParent_of_firstUnmet (h : FirstUnmet (t.parentDemands p) why) :
    t.checkParent p = .error why := by
  cases hq : Path.parent? p with
  | none =>
    rw [parentDemands, hq] at h
    exact h.elim
  | some q =>
    rw [parentDemands, hq] at h
    rw [checkParent, hq]
    rcases h with ⟨hnot, rfl⟩ | ⟨⟨n, hn⟩, ⟨hnot, rfl⟩ | ⟨-, h⟩⟩
    · have hnone : t.nodes.get? q = none := by
        rw [Option.eq_none_iff_forall_ne_some]
        exact fun n hn => hnot ⟨n, hn⟩
      simp [hnone]
    · have howned : n.isEphemeral = true := by
        rw [← Bool.not_eq_false]
        exact fun he => hnot ⟨n, hn, isEphemeral_eq_false_iff.1 he⟩
      simp [hn, howned]
    · exact h.elim

theorem checkParent_of_forall_met (h : ∀ d ∈ t.parentDemands p, d.met) :
    t.checkParent p = .ok () := by
  refine checkParent_eq_ok_iff.2 fun q hq => ?_
  rw [parentDemands, hq] at h
  exact h _ (List.mem_cons_of_mem _ List.mem_cons_self)

/-! ### How a change ends -/

/-- Demands decide how an operation ends. -/
structure Decides (l : List Demand) (r : Except Failure (Tree × List Delivery)) : Prop where
  refused : ∀ why, FirstUnmet l why → r = .error why
  granted : (∀ d ∈ l, d.met) → ∃ x, r = .ok x

theorem contains_iff_present (hp : Path.isNode p = true) :
    t.contains p = true ↔ t.Present p := by
  rw [Server.contains_of_isNode (v := ⟨t, 0, []⟩) hp, present_iff_contains]

theorem decides_create : Decides (t.createDemands p) (t.create s p data mode) where
  refused := by
    rintro why (⟨hnode, rfl⟩ | ⟨hnode, ⟨hthere, rfl⟩ | ⟨habsent, hparent⟩⟩)
    · have hno : Path.isNode p = false := Bool.eq_false_iff.2 hnode
      simp [create, hno, throw_bind]
    · have hyes : t.contains p = true := (contains_iff_present hnode).2 (not_not.1 hthere)
      have hnode : Path.isNode p = true := hnode
      simp [create, hnode, hyes, throw_bind]
    · have hno : t.contains p = false :=
        Bool.eq_false_iff.2 fun hyes => habsent ((contains_iff_present hnode).1 hyes)
      have hnode : Path.isNode p = true := hnode
      simp only [create, hnode, hno, checkParent_of_firstUnmet hparent]
      rfl
  granted hall := by
    obtain ⟨hnode, hall⟩ := List.forall_mem_cons.1 hall
    obtain ⟨habsent, hparent⟩ := List.forall_mem_cons.1 hall
    have hno : t.contains p = false :=
      Bool.eq_false_iff.2 fun hyes => habsent ((contains_iff_present hnode).1 hyes)
    exact ⟨_, create_eq_ok_iff.2
      ⟨hnode, hno, checkParent_of_forall_met hparent, rfl, rfl⟩⟩

theorem decides_delete : Decides (t.deleteDemands p) (t.delete p) where
  refused := by
    rintro why (⟨hnode, rfl⟩ | ⟨hnode, ⟨habsent, rfl⟩ | ⟨hthere, ⟨hbelow, rfl⟩ | ⟨-, h⟩⟩⟩)
    · have hno : Path.isNode p = false := Bool.eq_false_iff.2 hnode
      simp [delete, hno, throw_bind]
    · have hno : t.nodes.contains p = false :=
        Bool.eq_false_iff.2 fun hyes => habsent (present_iff_contains.2 hyes)
      have hnode : Path.isNode p = true := hnode
      simp [delete, hnode, hno, throw_bind]
    · have hyes : t.nodes.contains p = true := present_iff_contains.1 hthere
      have hchildren : t.hasChildren p = true := hasBelow_iff.1 (not_not.1 hbelow)
      have hnode : Path.isNode p = true := hnode
      simp only [delete, hnode, hyes, hchildren]
      rfl
    · exact h.elim
  granted hall := by
    obtain ⟨hnode, hall⟩ := List.forall_mem_cons.1 hall
    obtain ⟨hthere, hall⟩ := List.forall_mem_cons.1 hall
    have hbelow : ¬ t.HasBelow p := hall _ List.mem_cons_self
    have hchildren : t.hasChildren p = false :=
      Bool.eq_false_iff.2 fun hyes => hbelow (hasBelow_iff.2 hyes)
    exact ⟨_, delete_eq_ok_iff.2
      ⟨hnode, present_iff_contains.1 hthere, hchildren, rfl, rfl⟩⟩

theorem decides_write : Decides (t.writeDemands p) (t.write p data) where
  refused := by
    rintro why (⟨habsent, rfl⟩ | ⟨-, h⟩)
    · have hnone : t.nodes.get? p = none := by
        rw [Option.eq_none_iff_forall_ne_some]
        exact fun n hn => habsent ⟨n, hn⟩
      simp [write, hnone]
    · exact h.elim
  granted hall := by
    obtain ⟨n, hn⟩ : t.Present p := hall _ List.mem_cons_self
    exact ⟨_, write_eq_ok_iff.2 ⟨n, hn, rfl, rfl⟩⟩

namespace Server

variable {v : Server} {r : Except Failure (Tree × List Delivery)} {c : Request}

theorem done_commit_iff (h : Decides l r) : (v.commit r).2.1 = .done ↔ ∀ d ∈ l, d.met := by
  constructor
  · intro hdone
    refine (forall_met_or_firstUnmet l).resolve_right ?_
    rintro ⟨why, hwhy⟩
    rw [h.refused why hwhy] at hdone
    exact nomatch hdone
  · intro hall
    obtain ⟨x, rfl⟩ := h.granted hall
    rfl

theorem failed_commit_iff (h : Decides l r) :
    (v.commit r).2.1 = .failed why ↔ FirstUnmet l why := by
  constructor
  · intro hfailed
    rcases forall_met_or_firstUnmet l with hall | ⟨why', hwhy⟩
    · rw [(done_commit_iff h).2 hall] at hfailed
      exact nomatch hfailed
    · rw [h.refused why' hwhy] at hfailed
      exact Reply.failed.inj hfailed ▸ hwhy
  · intro hwhy
    rw [h.refused why hwhy]
    rfl

/-! ### Requests -/

/-- What a request demands of an open session. -/
def openDemands (v : Server) : Request → List Demand
  | .create p _ _ => v.tree.createDemands p
  | .delete p => v.tree.deleteDemands p
  | .write p _ => v.tree.writeDemands p
  | _ => []

/-- What a request demands, in the order in which it is looked at. -/
def demands (v : Server) (s : SessionId) (c : Request) : List Demand :=
  ⟨v.isClosed s = false, .sessionClosed⟩ :: v.openDemands c

theorem failed_perform_iff :
    (v.perform s c).2.1 = .failed why ↔ FirstUnmet (v.openDemands c) why := by
  cases c with
  | create p data mode => exact failed_commit_iff decides_create
  | delete p => exact failed_commit_iff decides_delete
  | write p data => exact failed_commit_iff decides_write
  | _ => exact ⟨nofun, False.elim⟩

/-- **A request fails for the first of its demands that is not met.** -/
theorem failed_answer_iff : (v.answer s c).2.1 = .failed why ↔ FirstUnmet (v.demands s c) why := by
  have hclosed : ¬ v.isClosed s = false ↔ v.isClosed s = true := by simp
  show _ ↔ (¬ v.isClosed s = false ∧ Failure.sessionClosed = why) ∨ (v.isClosed s = false ∧ _)
  rw [hclosed]
  cases hs : v.isClosed s with
  | true => simp [answer, hs]
  | false => simp [answer_of_open hs, failed_perform_iff]

theorem done_answer_iff {l : List Demand} {r : Except Failure (Tree × List Delivery)}
    (hr : v.perform s c = v.commit r) (h : Decides l r) :
    (v.answer s c).2.1 = .done ↔ v.isClosed s = false ∧ ∀ d ∈ l, d.met := by
  cases hs : v.isClosed s with
  | true => simp [answer, hs]
  | false => rw [answer_of_open hs, hr, done_commit_iff h, eq_self_iff_true, true_and]

theorem forall_parentDemands_met_iff : (∀ d ∈ t.parentDemands p, d.met) ↔
    Path.parent? p = none ∨ ∃ q, Path.parent? p = some q ∧ t.Stays q := by
  unfold parentDemands
  cases Path.parent? p with
  | none => simp
  | some q =>
    have hpresent : t.Stays q → t.Present q := fun ⟨n, hn, _⟩ => ⟨n, hn⟩
    simpa using hpresent

/-- **A node is created, deleted or written exactly when that is allowed.**  Whatever fails, fails
for the first of its demands that is not met, changes nothing and tells nobody. -/
theorem done_iff_allowed (v : Server) (s : SessionId) :
    (∀ p data mode, (v.answer s (.create p data mode)).2.1 = .done ↔
      v.isClosed s = false ∧ Path.isNode p = true ∧ ¬ v.tree.Present p ∧
        (Path.parent? p = none ∨ ∃ q, Path.parent? p = some q ∧ v.tree.Stays q)) ∧
    (∀ p, (v.answer s (.delete p)).2.1 = .done ↔
      v.isClosed s = false ∧ Path.isNode p = true ∧ v.tree.Present p ∧ ¬ v.tree.HasBelow p) ∧
    (∀ p data, (v.answer s (.write p data)).2.1 = .done ↔
      v.isClosed s = false ∧ v.tree.Present p) ∧
    (∀ p data, (v.write p data).2.1 = .done ↔ v.tree.Present p) ∧
    (∀ c why, (v.answer s c).2.1 = .failed why ↔ FirstUnmet (v.demands s c) why) ∧
    (∀ p data why, (v.write p data).2.1 = .failed why ↔
      FirstUnmet (v.tree.writeDemands p) why) ∧
    (∀ c why, (v.answer s c).2.1 = .failed why ↔ v.answer s c = (v, .failed why, [])) ∧
    ∀ p data why, (v.write p data).2.1 = .failed why ↔ v.write p data = (v, .failed why, []) := by
  refine ⟨fun p data mode => ?_, fun p => ?_, fun p data => ?_, fun p data => ?_,
    fun c why => failed_answer_iff, fun p data why => failed_commit_iff decides_write,
    fun c why => ⟨answer_of_failed, fun h => by rw [h]⟩,
    fun p data why => ⟨commit_of_failed, fun h => by rw [h]⟩⟩
  · rw [done_answer_iff rfl decides_create, createDemands, List.forall_mem_cons,
      List.forall_mem_cons, forall_parentDemands_met_iff]
  · rw [done_answer_iff rfl decides_delete, deleteDemands, List.forall_mem_cons,
      List.forall_mem_cons, List.forall_mem_cons]
    simp
  · rw [done_answer_iff rfl decides_write, writeDemands]
    simp
  · rw [write, done_commit_iff decides_write, writeDemands]
    simp

end Server

end Discovery.Tree
