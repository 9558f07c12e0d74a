import Discovery.Proofs.Registry.Alone

/-!
# Registering and unregistering, alone

A registration that nothing else comes between is exact: it replaces the node at its path, creates
the ancestors that are missing, and else changes nothing; or it fails and changes nothing at all.
It fails if the node at its path has children, or if an ancestor is ephemeral.  Since what an
ephemeral node stands above is never there, the climb from the path meets that ancestor before
anything has been created.

* `ends_climbing`: the climb finds the lowest ancestor that is there.
* `ends_building`, `ends_building_of_blocked`: what is missing is created from the top, or nothing.
* `register_alone`: what a registration comes to, and the unregistration after it.
-/

namespace Discovery

open Discovery.Tree (Delivery Node NodesSound Reply Request Server SessionId)
open Discovery.Tree.Path (ancestors isNode parent?)

/-! ### What is answered to one request -/

namespace Tree

/-- The tree with another node, which a session has created. -/
def add (t : Tree) (s : SessionId) (p : String) (data : Bytes) (mode : Mode) : Tree :=
  { t with
    nodes := t.nodes.insert p ⟨data, mode.owner s⟩
    history := t.history ++ [.created p mode] }

/-- The tree without a node. -/
def remove (t : Tree) (p : String) : Tree :=
  { t with nodes := t.nodes.erase p, history := t.history ++ [.deleted p] }

/-- The tree with nodes without data that a session has created one after the other. -/
def raise (t : Tree) (s : SessionId) : List String → Tree
  | [] => t
  | q :: qs => (t.add s q [] .persistent).raise s qs

theorem get?_raise {s : SessionId} {x : String} : ∀ {qs : List String} {t : Tree},
    (t.raise s qs).nodes.get? x = if x ∈ qs then some ⟨[], none⟩ else t.nodes.get? x := by
  intro qs
  induction qs with
  | nil => intro t; rfl
  | cons q qs ih =>
    intro t
    rw [raise, ih]
    show (if x ∈ qs then _ else (t.nodes.insert q ⟨[], none⟩).get? x) = _
    by_cases hx : x ∈ qs
    · simp [hx]
    · by_cases hq : x = q
      · simp [hq]
      · simp [hx, hq, Table.get?_insert_of_ne]

theorem history_raise {s : SessionId} : ∀ {qs : List String} {t : Tree},
    (t.raise s qs).history = t.history ++ qs.map (.created · .persistent) := by
  intro qs
  induction qs with
  | nil => intro t; exact (List.append_nil _).symm
  | cons q qs ih =>
    intro t
    rw [raise, ih, List.map_cons]
    exact List.append_assoc ..

namespace Server

variable {v : Server} {s : SessionId} {p : String}

theorem answer_create_of_absent (data : Bytes) (mode : Mode) (ho : v.isClosed s = false)
    (hp : isNode p = true) (hnone : v.tree.nodes.get? p = none)
    (hpar : ∀ q, parent? p = some q → ∃ m, v.tree.nodes.get? q = some m ∧ m.owner = none) :
    v.answer s (.create p data mode) =
      ({ v with tree := v.tree.add s p data mode }, .done,
        v.tree.deliveries p (.changed p data)) := by
  have hnew : v.tree.contains p = false := by
    rw [contains_of_isNode hp, Table.contains, hnone]
    rfl
  have hcreate : v.tree.create s p data mode =
      .ok (v.tree.add s p data mode, v.tree.deliveries p (.changed p data)) :=
    create_eq_ok_iff.2 ⟨hp, hnew, checkParent_eq_ok_iff.2 hpar, rfl, rfl⟩
  rw [answer_of_open ho, perform, hcreate]
  rfl

theorem answer_create_of_ephemeral {q : String} {m : Node} (data : Bytes) (mode : Mode)
    (ho : v.isClosed s = false) (hp : isNode p = true) (hnone : v.tree.nodes.get? p = none)
    (hpar : parent? p = some q) (hm : v.tree.nodes.get? q = some m) (howner : m.owner ≠ none) :
    v.answer s (.create p data mode) = (v, .failed (.noChildrenForEphemerals q), []) := by
  have hnew : v.tree.contains p = false := by
    rw [contains_of_isNode hp, Table.contains, hnone]
    rfl
  have heph : m.isEphemeral = true := by
    rw [← Bool.not_eq_false, isEphemeral_eq_false_iff]
    exact howner
  have hcheck : v.tree.checkParent p = .error (.noChildrenForEphemerals q) := by
    simp [checkParent, hpar, hm, heph]
  have hcreate : v.tree.create s p data mode = .error (.noChildrenForEphemerals q) := by
    simp only [create, hp, hnew, hcheck]
    rfl
  rw [answer_of_open ho, perform, hcreate]
  rfl

theorem answer_delete_of_childless (ho : v.isClosed s = false) (hp : isNode p = true)
    (hthere : v.tree.nodes.contains p = true) (hc : v.tree.hasChildren p = false) :
    v.answer s (.delete p) =
      ({ v with tree := v.tree.remove p }, .done, v.tree.deliveries p (.deleted p)) := by
  have hdelete : v.tree.delete p = .ok (v.tree.remove p, v.tree.deliveries p (.deleted p)) :=
    delete_eq_ok_iff.2 ⟨hp, hthere, hc, rfl, rfl⟩
  rw [answer_of_open ho, perform, hdelete]
  rfl

theorem answer_delete_of_children (ho : v.isClosed s = false) (hp : isNode p = true)
    (hthere : v.tree.nodes.contains p = true) (hc : v.tree.hasChildren p = true) :
    v.answer s (.delete p) = (v, .failed (.notEmpty p), []) := by
  have hdelete : v.tree.delete p = .error (.notEmpty p) := by
    simp only [delete, hp, hthere, hc]
    rfl
  rw [answer_of_open ho, perform, hdelete]
  rfl

end Server

/-! ### Ancestors -/

/-- The ancestors of a path that are not there, the topmost first. -/
def missing (t : Tree) (p : String) : List String :=
  ((ancestors p).filter fun q => !t.nodes.contains q).reverse

theorem mem_missing_iff {t : Tree} {p q : String} :
    q ∈ t.missing p ↔ q ∈ ancestors p ∧ t.nodes.get? q = none := by
  simp [missing, Table.contains]

/-- **The ancestors that are not there are the lowest ones.** -/
theorem exists_ancestors_eq {alive : SessionId → Prop} {t : Tree} (h : NodesSound alive t.nodes)
    (p : String) : ∃ higher, ancestors p = (t.missing p).reverse ++ higher ∧
      ∀ q ∈ higher, t.nodes.contains q = true := by
  unfold missing
  rw [List.reverse_reverse]
  generalize has : ancestors p = as
  induction as generalizing p with
  | nil => exact ⟨[], rfl, fun q hq => absurd hq List.not_mem_nil⟩
  | cons a as ih =>
    obtain ⟨_, ha⟩ := Path.parent?_of_ancestors_eq_cons has
    cases hthere : t.nodes.contains a with
    | true =>
      obtain ⟨n, hn⟩ := Option.isSome_iff_exists.1 hthere
      have habove : ∀ q ∈ as, t.nodes.contains q = true := by
        intro q hq
        rw [← ha] at hq
        obtain ⟨m, hm, _⟩ := h.ancestors hn hq
        exact Option.isSome_iff_exists.2 ⟨m, hm⟩
      have hnone : (a :: as).filter (fun q => !t.nodes.contains q) = [] := by
        rw [List.filter_eq_nil_iff]
        intro q hq
        rcases List.mem_cons.1 hq with rfl | hq
        · simp [hthere]
        · simp [habove q hq]
      exact ⟨a :: as, by rw [hnone, List.nil_append], List.forall_mem_cons.2 ⟨hthere, habove⟩⟩
    | false =>
      obtain ⟨higher, heq, hhigher⟩ := ih a ha
      refine ⟨higher, ?_, hhigher⟩
      rw [List.filter_cons_of_pos (by simp [hthere]), List.cons_append, ← heq]

theorem ne_of_ancestors_eq_append {p q here : String} {xs ys : List String}
    (h : ancestors p = xs ++ here :: ys) (hq : q ∈ xs) : here ≠ q := by
  obtain ⟨as, bs, rfl⟩ := List.append_of_mem hq
  rw [List.append_assoc, List.cons_append] at h
  have hbelow : here ∈ ancestors q := by
    rw [Path.ancestors_of_eq_append h]
    exact List.mem_append_right _ List.mem_cons_self
  exact Path.ne_of_mem_ancestors hbelow

end Tree

namespace Registry

/-! ### Climbing -/

namespace Nodes

/-- Where a call stands that is to create ancestors, the topmost first, and then the node. -/
def Call.building (p : Publication) : List String → Call
  | [] => .putLeaf p
  | here :: rest => .build p here rest

/-- Where a call stands that looks for the lowest ancestor that is there. -/
def Call.climbing (p : Publication) (above missing : List String) : Call :=
  match above with
  | [] => .building p missing
  | here :: above => .climb p here above missing

theorem buildUp_eq (r : Nodes) (p : Publication) (missing : List String) :
    r.buildUp p missing = r.goOn (.building p missing) := by
  cases missing <;> rfl

theorem climbUp_eq (r : Nodes) (p : Publication) (above missing : List String) :
    r.climbUp p above missing = r.goOn (.climbing p above missing) := by
  cases above with
  | nil => exact buildUp_eq r p missing
  | cons here above => rfl

end Nodes

namespace Interplay

open Nodes (Call)

variable {s : Interplay} {n : Nat} {v v' : Server} {p : Publication} {failed : List String}
  {above higher missing : List String}

theorem answer_check (ho : v.isClosed s.registry.session = false) {q : String}
    (hq : isNode q = true) : v.answer s.registry.session (.check q) =
      (v, .present (v.tree.nodes.contains q), []) := by
  rw [Server.answer_of_open ho, ← Server.contains_of_isNode hq]
  rfl

/-- **The climb ends below the lowest ancestor that is there.** -/
theorem ends_climbing (ho : v.isClosed s.registry.session = false)
    (hhigher : ∀ q ∈ higher, v.tree.nodes.contains q = true ∧ isNode q = true) :
    ∀ {lower missing : List String},
      (∀ q ∈ lower, v.tree.nodes.contains q = false ∧ isNode q = true) →
      s.Ends n v (.building p (lower.reverse ++ missing)) v' failed →
      s.Ends n v (.climbing p (lower ++ higher) missing) v' failed := by
  intro lower
  induction lower with
  | nil =>
    intro missing _ h
    cases higher with
    | nil => exact h
    | cons here above =>
      obtain ⟨hthere, hnode⟩ := hhigher here List.mem_cons_self
      refine ends_of_goOn rfl (answer_check ho hnode) (fun r => ?_) h
      rw [hthere]
      exact Nodes.buildUp_eq r p missing
  | cons here lower ih =>
    intro missing hlower h
    obtain ⟨habsent, hnode⟩ := hlower here List.mem_cons_self
    rw [List.reverse_cons, List.append_assoc, List.singleton_append] at h
    refine ends_of_goOn rfl (answer_check ho hnode) (fun r => ?_)
      (ih (fun q hq => hlower q (List.mem_cons_of_mem _ hq)) h)
    rw [habsent]
    exact Nodes.climbUp_eq r p (lower ++ higher) (here :: missing)

/-! ### Building -/

/-- The node above the lowest ancestor that is there stays, if there is one. -/
def Stays (t : Tree) (above : List String) : Prop :=
  ∀ q, above.head? = some q → ∃ m, t.nodes.get? q = some m ∧ m.owner = none

/-- **All that is missing is created**, the topmost first, and then the node. -/
theorem ends_building (hp : isNode p.path = true) : ∀ {rest above : List String} {v : Server},
    v.isClosed s.registry.session = false →
    ancestors p.path = rest.reverse ++ above → Stays v.tree above →
    (∀ q ∈ rest, v.tree.nodes.get? q = none) → v.tree.nodes.get? p.path = none →
    s.Ends n v (.building p rest) { v with
      tree := (v.tree.raise s.registry.session rest).add s.registry.session p.path p.data p.mode }
      [] := by
  intro rest
  induction rest with
  | nil =>
    intro above v ho hsplit hstays _ hnone
    have hpar : ∀ q, parent? p.path = some q →
        ∃ m, v.tree.nodes.get? q = some m ∧ m.owner = none := by
      intro q hq
      refine hstays q ?_
      rw [List.reverse_nil, List.nil_append] at hsplit
      rwa [← hsplit]
    exact ends_of_finish rfl (Server.answer_create_of_absent _ _ ho hp hnone hpar) fun r => rfl
  | cons here rest ih =>
    intro above v ho hsplit hstays habsent hnone
    rw [List.reverse_cons, List.append_assoc, List.singleton_append] at hsplit
    have hmem : here ∈ ancestors p.path := by
      rw [hsplit]
      exact List.mem_append_right _ List.mem_cons_self
    have hpar : ∀ q, parent? here = some q →
        ∃ m, v.tree.nodes.get? q = some m ∧ m.owner = none := by
      intro q hq
      refine hstays q ?_
      rw [← Tree.Path.ancestors_of_eq_append hsplit]
      exact hq
    have hcreate := Server.answer_create_of_absent (v := v) [] .persistent ho
      (Tree.Path.isNode_of_mem_ancestors hp hmem) (habsent here List.mem_cons_self) hpar
    refine ends_of_goOn rfl hcreate (fun r => Nodes.buildUp_eq r p rest) ?_
    have hother : ∀ q, q ≠ here → v.tree.nodes.get? q = none →
        (v.tree.add s.registry.session here [] .persistent).nodes.get? q = none := by
      intro q hne hq
      exact (Table.get?_insert_of_ne _ _ hne).trans hq
    refine ih (v := { v with tree := v.tree.add s.registry.session here [] .persistent }) ho hsplit
      ?_ ?_ (hother _ (Tree.Path.ne_of_mem_ancestors hmem).symm hnone)
    · intro q hq
      obtain rfl := Option.some.inj hq
      exact ⟨⟨[], none⟩, Table.get?_insert_self .., rfl⟩
    · intro q hq
      have hne := Tree.ne_of_ancestors_eq_append hsplit (List.mem_reverse.2 hq)
      exact hother q hne.symm (habsent q (List.mem_cons_of_mem _ hq))

/-- **Where the lowest ancestor that is there is ephemeral**, nothing is created. -/
theorem ends_building_of_blocked {rest : List String} {q : String} {m : Node}
    (hp : isNode p.path = true) (ho : v.isClosed s.registry.session = false)
    (hsplit : ancestors p.path = rest.reverse ++ q :: above)
    (hm : v.tree.nodes.get? q = some m) (howner : m.owner ≠ none)
    (habsent : ∀ x ∈ rest, v.tree.nodes.get? x = none) (hnone : v.tree.nodes.get? p.path = none) :
    s.Ends n v (.building p rest) v ["register"] := by
  cases rest with
  | nil =>
    have hpar : parent? p.path = some q := (Tree.Path.parent?_of_ancestors_eq_cons hsplit).1
    exact ends_of_fail rfl (Server.answer_create_of_ephemeral _ _ ho hp hnone hpar hm howner)
      fun r => rfl
  | cons here rest =>
    rw [List.reverse_cons, List.append_assoc, List.singleton_append] at hsplit
    have hmem : here ∈ ancestors p.path := by
      rw [hsplit]
      exact List.mem_append_right _ List.mem_cons_self
    have hpar : parent? here = some q :=
      (Tree.Path.parent?_of_ancestors_eq_cons (Tree.Path.ancestors_of_eq_append hsplit)).1
    exact ends_of_fail rfl (Server.answer_create_of_ephemeral _ _ ho
      (Tree.Path.isNode_of_mem_ancestors hp hmem) (habsent here List.mem_cons_self) hpar hm howner)
      fun r => rfl

/-! ### Registering -/

/-- The way to a path is clear: none of its ancestors is ephemeral. -/
def Clears (t : Tree) (p : String) : Prop :=
  ∀ q ∈ ancestors p, t.isEphemeral? q ≠ some true

/-- **Where nothing stands at the path**, the way to it decides. -/
theorem ends_of_absent {alive : SessionId → Prop} (hsound : NodesSound alive v.tree.nodes)
    (hp : isNode p.path = true) (ho : v.isClosed s.registry.session = false)
    (hnone : v.tree.nodes.get? p.path = none) :
    (Clears v.tree p.path → s.Ends n v (.climbing p (ancestors p.path) []) { v with
      tree := (v.tree.raise s.registry.session (v.tree.missing p.path)).add s.registry.session
        p.path p.data p.mode } []) ∧
    (¬ Clears v.tree p.path →
      s.Ends n v (.climbing p (ancestors p.path) []) v ["register"]) := by
  obtain ⟨higher, hsplit, hhigher⟩ := Tree.exists_ancestors_eq hsound p.path
  have hnode : ∀ q ∈ ancestors p.path, isNode q = true :=
    fun q hq => Tree.Path.isNode_of_mem_ancestors hp hq
  have habsent : ∀ q ∈ v.tree.missing p.path, v.tree.nodes.get? q = none :=
    fun q hq => (Tree.mem_missing_iff.1 hq).2
  have hclimb : ∀ v' failed, s.Ends n v (.building p (v.tree.missing p.path)) v' failed →
      s.Ends n v (.climbing p (ancestors p.path) []) v' failed := by
    intro v' failed h
    rw [hsplit]
    refine ends_climbing ho (fun q hq => ⟨hhigher q hq, hnode q ?_⟩) (fun q hq => ?_) ?_
    · rw [hsplit]
      exact List.mem_append_right _ hq
    · rw [List.mem_reverse] at hq
      refine ⟨?_, hnode q (Tree.mem_missing_iff.1 hq).1⟩
      simp [Table.contains, habsent q hq]
    · rwa [List.reverse_reverse, List.append_nil]
  have hclears : Clears v.tree p.path ↔ Stays v.tree higher := by
    constructor
    · intro hclear q hq
      have hmem : q ∈ higher := List.mem_of_mem_head? hq
      obtain ⟨m, hm⟩ := Option.isSome_iff_exists.1 (hhigher q hmem)
      refine ⟨m, hm, Tree.isEphemeral_eq_false_iff.1 ?_⟩
      have hlasting := hclear q (hsplit ▸ List.mem_append_right _ hmem)
      simpa [Tree.isEphemeral?, hm] using hlasting
    · intro hstays q hq heph
      obtain ⟨m, hm, hm'⟩ := Option.map_eq_some_iff.1 heph
      have howner : m.owner ≠ none := by
        intro hnone
        rw [Tree.isEphemeral_eq_false_iff.2 hnone] at hm'
        exact Bool.false_ne_true hm'
      have hmem : q ∈ higher := by
        rw [hsplit] at hq
        refine (List.mem_append.1 hq).resolve_left fun hlow => ?_
        exact Option.some_ne_none m (hm.symm.trans (habsent q (List.mem_reverse.1 hlow)))
      -- what stands above the lowest ancestor that is there stays
      cases higher with
      | nil => exact absurd hmem List.not_mem_nil
      | cons a above =>
        obtain ⟨na, hna, hstay⟩ := hstays a rfl
        rcases List.mem_cons.1 hmem with rfl | hmem
        · obtain rfl := Option.some.inj (hna.symm.trans hm)
          exact howner hstay
        · rw [← Tree.Path.ancestors_of_eq_append hsplit] at hmem
          obtain ⟨m', hm', hstay'⟩ := hsound.ancestors hna hmem
          obtain rfl := Option.some.inj (hm'.symm.trans hm)
          exact howner hstay'
  refine ⟨fun hclear => hclimb _ _ ?_, fun hblocked => hclimb _ _ ?_⟩
  · exact ends_building hp ho hsplit (hclears.1 hclear) habsent hnone
  · rw [hclears] at hblocked
    unfold Stays at hblocked
    push Not at hblocked
    obtain ⟨q, hq, hnot⟩ := hblocked
    have hhigher' := hhigher q (List.mem_of_mem_head? hq)
    obtain ⟨m, hm⟩ := Option.isSome_iff_exists.1 hhigher'
    obtain ⟨above, rfl⟩ : ∃ above, higher = q :: above := by
      cases higher with
      | nil => cases hq
      | cons a above =>
        obtain rfl := Option.some.inj hq
        exact ⟨above, rfl⟩
    exact ends_building_of_blocked hp ho hsplit hm (hnot m hm) habsent hnone

/-- Whether a node may be registered at a path: nothing stands below it, and the way is clear. -/
def Accepts (t : Tree) (p : String) : Prop :=
  (t.nodes.contains p = true → t.hasChildren p = false) ∧ Clears t p

/-- The tree after a registration: what stood at the path is gone, the missing ancestors have been
created, and then the node. -/
def registered (t : Tree) (s : SessionId) (p : Publication) : Tree :=
  let cleared := if t.nodes.contains p.path then t.remove p.path else t
  (cleared.raise s (cleared.missing p.path)).add s p.path p.data p.mode

/-- A node without children is replaced: its ancestors are there, and stay. -/
theorem ends_clearLeaf {alive : SessionId → Prop} (hsound : NodesSound alive v.tree.nodes)
    (hp : isNode p.path = true) (ho : v.isClosed s.registry.session = false)
    (hthere : v.tree.nodes.contains p.path = true) (hc : v.tree.hasChildren p.path = false) :
    Clears v.tree p.path ∧ s.Ends n v (.clearLeaf p)
      { v with tree := registered v.tree s.registry.session p } [] := by
  obtain ⟨m, hm⟩ := Option.isSome_iff_exists.1 hthere
  have hchildless : ∀ q x, v.tree.nodes.get? q = some x →
      Tree.Path.startsWith q (Tree.Path.below p.path) = false := by
    intro q x hq
    rw [Bool.eq_false_iff]
    intro hpq
    rw [Tree.hasChildren_iff.2 ⟨q, x, hq, hpq⟩] at hc
    exact nomatch hc
  have hclears : ∀ t : Tree, (∀ q ∈ ancestors p.path, t.nodes.get? q = v.tree.nodes.get? q) →
      Clears t p.path := by
    intro t ht q hq heph
    obtain ⟨x, hx, howner⟩ := hsound.ancestors hm hq
    rw [Tree.isEphemeral?, ht q hq, hx] at heph
    simp [Node.isEphemeral, howner] at heph
  have hsame : ∀ q ∈ ancestors p.path,
      (v.tree.remove p.path).nodes.get? q = v.tree.nodes.get? q := fun q hq =>
    Table.get?_erase_of_ne _ (Tree.Path.ne_of_mem_ancestors hq)
  obtain ⟨hclear, _⟩ := ends_of_absent (s := s) (n := n) (p := p)
    (v := { v with tree := v.tree.remove p.path }) (hsound.erase hchildless) hp ho
    (Table.get?_erase_self ..)
  refine ⟨hclears _ fun _ _ => rfl, ?_⟩
  unfold registered
  rw [hthere]
  exact ends_of_goOn rfl (Server.answer_delete_of_childless ho hp hthere hc)
    (fun r => Nodes.climbUp_eq r p _ _) (hclear (hclears _ hsame))

/-- **A registration** does all that it is to do, or nothing. -/
theorem ends_checkLeaf {alive : SessionId → Prop} (hsound : NodesSound alive v.tree.nodes)
    (hp : isNode p.path = true) (ho : v.isClosed s.registry.session = false) :
    (Accepts v.tree p.path → s.Ends n v (.checkLeaf p)
      { v with tree := registered v.tree s.registry.session p } []) ∧
    (¬ Accepts v.tree p.path → s.Ends n v (.checkLeaf p) v ["register"]) := by
  have hcheck := answer_check ho hp
  cases hthere : v.tree.nodes.contains p.path with
  | false =>
    rw [hthere] at hcheck
    have hnone : v.tree.nodes.get? p.path = none := by simpa [Table.contains] using hthere
    obtain ⟨hclear, hblocked⟩ := ends_of_absent (s := s) (n := n) hsound hp ho hnone
    have hgo : ∀ v' failed, s.Ends n v (.climbing p (ancestors p.path) []) v' failed →
        s.Ends n v (.checkLeaf p) v' failed := fun v' failed =>
      ends_of_goOn rfl hcheck fun r => Nodes.climbUp_eq r p _ _
    unfold Accepts registered
    rw [hthere]
    exact ⟨fun h => hgo _ _ (hclear h.2),
      fun h => hgo _ _ (hblocked fun hc => h ⟨fun hnot => absurd hnot Bool.false_ne_true, hc⟩)⟩
  | true =>
    rw [hthere] at hcheck
    have hgo : ∀ v' failed, s.Ends n v (.clearLeaf p) v' failed →
        s.Ends n v (.checkLeaf p) v' failed := fun v' failed =>
      ends_of_goOn rfl hcheck fun r => rfl
    cases hc : v.tree.hasChildren p.path with
    | true =>
      refine ⟨fun h => absurd ((h.1 hthere).symm.trans hc) (by simp), fun _ => hgo _ _ ?_⟩
      exact ends_of_fail rfl (Server.answer_delete_of_children ho hp hthere hc) fun r => rfl
    | false =>
      obtain ⟨hclears, hends⟩ := ends_clearLeaf (s := s) (n := n) hsound hp ho hthere hc
      exact ⟨fun _ => hgo _ _ hends, fun h => absurd ⟨fun _ => hc, hclears⟩ h⟩

/-- **An unregistration** takes the node away if nothing stands below it. -/
theorem ends_findLeaf (name : String) {path : String} (hp : isNode path = true)
    (ho : v.isClosed s.registry.session = false) :
    (v.tree.nodes.contains path = false → s.Ends n v (.findLeaf name path) v []) ∧
    (v.tree.nodes.contains path = true → v.tree.hasChildren path = false →
      s.Ends n v (.findLeaf name path) { v with tree := v.tree.remove path } []) ∧
    (v.tree.nodes.contains path = true → v.tree.hasChildren path = true →
      s.Ends n v (.findLeaf name path) v ["unregister"]) := by
  have hcheck := answer_check ho hp
  have hgo : v.tree.nodes.contains path = true → ∀ v' failed,
      s.Ends n v (.removeLeaf name path) v' failed →
      s.Ends n v (.findLeaf name path) v' failed := by
    intro hthere v' failed
    rw [hthere] at hcheck
    exact ends_of_goOn rfl hcheck fun r => rfl
  refine ⟨fun hnot => ?_, fun hthere hc => hgo hthere _ _ ?_, fun hthere hc => hgo hthere _ _ ?_⟩
  · rw [hnot] at hcheck
    exact ends_of_finish rfl hcheck fun r => rfl
  · exact ends_of_finish rfl (Server.answer_delete_of_childless ho hp hthere hc) fun r => rfl
  · exact ends_of_fail rfl (Server.answer_delete_of_children ho hp hthere hc) fun r => rfl

/-! ### What it comes to -/

/-- What a registration that succeeds changes. -/
structure Registered (s s' : Interplay) (p : String) (data : Payload) (eph : Bool) : Prop where
  /-- The node is there, and so are its ancestors; all others are as they were. -/
  nodes : ∀ q, s'.server.tree.nodes.get? q =
    if q = p then some ⟨data.encode, (Tree.Mode.ofEphemeral eph).owner s.registry.session⟩
    else if q ∈ ancestors p ∧ s.server.tree.nodes.get? q = none then some ⟨[], none⟩
    else s.server.tree.nodes.get? q
  /-- The node that was there is deleted, the missing ancestors are created, then the node. -/
  history : s'.server.tree.history = s.server.tree.history ++
    ((if s.server.tree.nodes.contains p then [.deleted p] else []) ++
      (s.server.tree.missing p).map (.created · .persistent) ++
      [.created p (.ofEphemeral eph)])
  watches : s'.server.tree.watches = s.server.tree.watches
  sessions : s'.server.opened = s.server.opened ∧ s'.server.closed = s.server.closed
  failures : ∀ op, s'.registry.failures op = s.registry.failures op

/-- A call that fails leaves the server as it was, and is counted once. -/
structure Refused (s s' : Interplay) (operation : String) : Prop where
  server : s'.server = s.server
  failures : ∀ op, s'.registry.failures op =
    s.registry.failures op + if op = operation then 1 else 0

/-- What an unregistration comes to. -/
structure Unregistered (s s' : Interplay) (p : String) : Prop where
  absent : s.server.tree.nodes.contains p = false →
    s'.server = s.server ∧ ∀ op, s'.registry.failures op = s.registry.failures op
  childless : s.server.tree.nodes.contains p = true → s.server.tree.hasChildren p = false →
    s'.server = { s.server with tree := s.server.tree.remove p } ∧
      ∀ op, s'.registry.failures op = s.registry.failures op
  children : s.server.tree.nodes.contains p = true → s.server.tree.hasChildren p = true →
    Refused s s' "unregister"

theorem At.unfailed {v : Server} {s' : Interplay} (h : s.At n v none [] s') (op : String) :
    s'.registry.failures op = s.registry.failures op :=
  (h.failures op).trans (UInt64.add_zero _)

theorem At.refused {operation : String} {s' : Interplay}
    (h : s.At n s.server none [operation] s') : Refused s s' operation := by
  refine ⟨h.server, fun op => (h.failures op).trans ?_⟩
  rw [ofNat_count_singleton]

theorem get?_registered {t : Tree} {session : SessionId} (p : Publication) (q : String) :
    (registered t session p).nodes.get? q =
      if q = p.path then some ⟨p.data, p.mode.owner session⟩
      else if q ∈ ancestors p.path ∧ t.nodes.get? q = none then some ⟨[], none⟩
      else t.nodes.get? q := by
  have hcleared : ∀ x, x ≠ p.path →
      (if t.nodes.contains p.path then t.remove p.path else t).nodes.get? x = t.nodes.get? x := by
    intro x hx
    split
    · exact Table.get?_erase_of_ne _ hx
    · rfl
  unfold registered Tree.add
  dsimp only
  rw [Table.get?_insert]
  by_cases hq : q = p.path
  · rw [if_pos hq, if_pos hq]
  · rw [if_neg hq, if_neg hq, Tree.get?_raise, hcleared q hq]
    simp only [Tree.mem_missing_iff, hcleared q hq]

theorem history_registered {t : Tree} {session : SessionId} (p : Publication) :
    (registered t session p).history = t.history ++
      ((if t.nodes.contains p.path then [.deleted p.path] else []) ++
        (t.missing p.path).map (.created · .persistent) ++ [.created p.path p.mode]) := by
  have hmissing : (t.remove p.path).missing p.path = t.missing p.path := by
    unfold Tree.missing
    congr 1
    refine List.filter_congr fun q hq => ?_
    have hne : q ≠ p.path := Tree.Path.ne_of_mem_ancestors hq
    simp only [Tree.remove, Table.contains, Table.get?_erase_of_ne _ hne]
  unfold registered Tree.add
  dsimp only
  rw [Tree.history_raise]
  cases t.nodes.contains p.path with
  | true =>
    rw [if_pos rfl, if_pos rfl, hmissing]
    simp [Tree.remove]
  | false => simp

theorem watches_raise {session : SessionId} : ∀ {qs : List String} {t : Tree},
    (t.raise session qs).watches = t.watches := by
  intro qs
  induction qs with
  | nil => intro t; rfl
  | cons q qs ih => intro t; exact ih

theorem At.registered {path : String} {data : Payload} {eph : Bool} {p : Publication}
    {s' : Interplay} (hpath : p.path = path) (hdata : p.data = data.encode)
    (hmode : p.mode = .ofEphemeral eph)
    (h : s.At n { s.server with tree := registered s.server.tree s.registry.session p } none []
      s') : Registered s s' path data eph := by
  subst hpath
  refine ⟨fun q => ?_, ?_, ?_, ?_, h.unfailed⟩
  · rw [h.server, get?_registered, hdata, hmode]
  · rw [h.server, history_registered, hmode]
  · rw [h.server]
    refine watches_raise.trans ?_
    split <;> rfl
  · rw [h.server]
    exact ⟨rfl, rfl⟩

/-- **An unregistration that runs alone.** -/
theorem exists_unregistered (ho : s.server.isClosed s.registry.session = false)
    (hfree : s.calls n = none) {e : Endpoint} {path : String} (he : e.path = .ok path)
    (hp : isNode path = true) : ∃ u, s.Alone n (.unregister e) u ∧ Unregistered s u path := by
  have hstart : s.registry.start (.unregister e) =
      s.registry.goOn (.findLeaf (e.describe s.registry.core.kind) path) := by
    simp only [Nodes.start, he]
  obtain ⟨habsent, hchildless, hchildren⟩ :=
    ends_findLeaf (s := s) (n := n) (e.describe s.registry.core.kind) hp ho
  cases hthere : s.server.tree.nodes.contains path with
  | false =>
    obtain ⟨u, halone, hu⟩ := exists_alone hfree hstart (habsent hthere)
    refine ⟨u, halone, fun _ => ⟨hu.server, hu.unfailed⟩, ?_, ?_⟩
    · exact fun h => nomatch hthere.symm.trans h
    · exact fun h => nomatch hthere.symm.trans h
  | true =>
    cases hc : s.server.tree.hasChildren path with
    | false =>
      obtain ⟨u, halone, hu⟩ := exists_alone hfree hstart (hchildless hthere hc)
      refine ⟨u, halone, ?_, fun _ _ => ⟨hu.server, hu.unfailed⟩, ?_⟩
      · exact fun h => nomatch hthere.symm.trans h
      · exact fun _ h => nomatch hc.symm.trans h
    | true =>
      obtain ⟨u, halone, hu⟩ := exists_alone hfree hstart (hchildren hthere hc)
      refine ⟨u, halone, ?_, ?_, fun _ _ => hu.refused⟩
      · exact fun h => nomatch hthere.symm.trans h
      · exact fun _ h => nomatch hc.symm.trans h

/-- **A registration that runs alone** succeeds exactly where a node may stand at its path, and then
changes what it is to change; else nothing.  An unregistration takes the node away again. -/
theorem register_alone {ds : List Delivery} (hreach : s.server.Reaches ds)
    (halive : s.server.Alive s.registry.session) (hfree : s.calls n = none) {e : Endpoint}
    {path : String} (he : e.path = .ok path) (hp : isNode path = true) (data : Payload)
    (eph : Bool) :
    (∃ s', s.Alone n (.register e data eph) s' ∧
      (Accepts s.server.tree path → Registered s s' path data eph) ∧
      (¬ Accepts s.server.tree path → Refused s s' "register") ∧
      ∃ u, s'.Alone n (.unregister e) u ∧ Unregistered s' u path) ∧
    ∃ u, s.Alone n (.unregister e) u ∧ Unregistered s u path := by
  refine ⟨?_, exists_unregistered halive.2 hfree he hp⟩
  let p : Publication :=
    ⟨e.describe s.registry.core.kind, path, data.encode, .ofEphemeral eph⟩
  have hstart : s.registry.start (.register e data eph) = s.registry.goOn (.checkLeaf p) := by
    simp only [Nodes.start, he]
    rfl
  obtain ⟨hyes, hno⟩ := ends_checkLeaf (s := s) (n := n) (p := p) hreach.sound.nodes hp halive.2
  by_cases haccepts : Accepts s.server.tree path
  · obtain ⟨s', halone, hs'⟩ := exists_alone hfree hstart (hyes haccepts)
    have ho : s'.server.isClosed s'.registry.session = false := by
      rw [hs'.server, hs'.session]
      exact halive.2
    exact ⟨s', halone, fun _ => hs'.registered rfl rfl rfl, fun h => absurd haccepts h,
      exists_unregistered ho hs'.call he hp⟩
  · obtain ⟨s', halone, hs'⟩ := exists_alone hfree hstart (hno haccepts)
    have ho : s'.server.isClosed s'.registry.session = false := by
      rw [hs'.server, hs'.session]
      exact halive.2
    exact ⟨s', halone, fun h => absurd h haccepts, fun _ => hs'.refused,
      exists_unregistered ho hs'.call he hp⟩

def oneNode : Server :=
  let v := ((∅ : Server).act .connect).1
  (v.act (.request 1 (.create "/a" [] .persistent))).1

/-- An endpoint whose parent is not there is registered. -/
theorem register_alone_of_missing_parent :
    let s := begin (fun _ _ _ => .completed) oneNode 0 1
    let e : Endpoint := ⟨"h", 1, ["a", "b", "c"], ∅⟩
    Accepts oneNode.tree "/a/b/c" ∧ oneNode.tree.missing "/a/b/c" = ["/a/b"] ∧
      ∃ s', s.Alone 0 (.register e ∅ true) s' ∧ Registered s s' "/a/b/c" ∅ true := by
  intro s e
  have hreach : Server.Reaches oneNode _ :=
    .act (.request 1 (.create "/a" [] .persistent)) (.act .connect .start trivial)
      ⟨by decide, by decide⟩
  have haccepts : Accepts oneNode.tree "/a/b/c" := by
    unfold Accepts Clears
    decide +kernel
  obtain ⟨⟨s', halone, hyes, _⟩, _⟩ := register_alone (s := s) (n := 0) (e := e) hreach
    ⟨⟨by decide, by decide⟩, by decide⟩ rfl (show e.path = .ok "/a/b/c" by decide +kernel)
    (by decide +kernel) ∅ true
  exact ⟨haccepts, by decide +kernel, s', halone, hyes haccepts⟩

end Interplay

end Registry

end Discovery
