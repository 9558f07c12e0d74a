import Discovery.Proofs.Registry.Registering
import Discovery.Proofs.Tree.Reach

/-!
# While registries register

What holds of a crowd at any time (`Settling`): the tree is kept, and each call stands where it may
stand; a node stands at each target or is still to be created by some call; and once a call is done
with what stood at its target before, whatever stands there has been created by one of the calls.

* `exists_turn`, `exists_went`: a call that is not over can go on; it takes a turn, and the other
  calls stay as they are.
* `Settling.gather`, `Settling.next`, `Settling.runs`: it holds at first, each step keeps it, and so
  do any number of steps.
-/

namespace Discovery.Registry

open Discovery.Tree (Node Request Reply Server SessionId)
open Discovery.Tree.Path (ancestors parent?)

/-! ### A call by itself -/

namespace Entrant

variable {x : Entrant} {e : Errand} {name : String} {r : Nodes} {ns ns' : Table Node} {b : Bool}
  {replies : List (Request × Reply)} {st : Step Nodes Nodes.Call} {n : Node}

/-- Whether a call is done with what stood at its target. -/
def cleared (x : Entrant) : Bool :=
  match x.stage with
  | .waiting => false
  | .under c => c.cleared
  | .ended => true

def next? (x : Entrant) : Option Request :=
  match x.stage with
  | .under c =>
    match c.need with
    | .ask q => some q
    | _ => none
  | _ => none

/-- A call that has not asked for its node yet has written nothing down. -/
structure Idle (x : Entrant) : Prop where
  other : ∀ y ∈ x.asked, y.1 ≠ x.errand.leaf
  failed : x.failed = false

/-- **A call stands where it may stand.**  When it is over, it has created its node, or it has met
one there and has failed. -/
def Fits (x : Entrant) (ns : Table Node) : Prop :=
  match x.stage with
  | .waiting => x.Idle
  | .under c => x.Idle ∧ ∃ name, Nodes.Stands (x.errand.publication name) ns c
  | .ended => x.Succeeded ∧ ¬ x.Met ∧ x.failed = false ∨ x.Met ∧ ¬ x.Succeeded ∧ x.failed = true

theorem Idle.not_succeeded (h : x.Idle) : ¬ x.Succeeded :=
  fun hs => h.other _ hs rfl

theorem Idle.not_met (h : x.Idle) : ¬ x.Met :=
  fun hs => h.other _ hs rfl

theorem Idle.after (h : x.Idle) (hr : ∀ y ∈ replies, y.1 ≠ x.errand.leaf) (hl : st.log = []) :
    (x.after replies st).Idle where
  other y hy := (List.mem_append.1 hy).elim (h.other y) (hr y)
  failed := by
    have hf := h.failed
    unfold Entrant.failed Entrant.after at *
    rwa [hl, List.append_nil]

theorem Fits.idle (h : x.Fits ns) (hs : x.stage ≠ .ended) : x.Idle := by
  unfold Fits at h
  split at h
  · exact h
  · exact h.1
  · next ho => exact absurd ho hs

theorem Fits.mono (h : x.Fits ns)
    (hs : ∀ q ∈ ancestors x.errand.target, ns.contains q = true → ns'.contains q = true) :
    x.Fits ns' := by
  unfold Fits at h ⊢
  split at h
  · exact h
  · obtain ⟨hi, name, hst⟩ := h
    exact ⟨hi, name, hst.mono hs⟩
  · exact h

theorem Fits.failed_of_succeeded (h : x.Fits ns) (hs : x.Succeeded) :
    ¬ x.Met ∧ x.failed = false := by
  unfold Fits at h
  split at h
  · exact absurd hs h.not_succeeded
  · exact absurd hs h.1.not_succeeded
  · exact h.elim And.right fun h => absurd hs h.2.1

/-- When a call is over, it has failed if and only if it met a node. -/
theorem Fits.failed_iff (h : x.Fits ns) (ho : x.stage = .ended) : x.failed = true ↔ x.Met := by
  unfold Fits at h
  rw [ho] at h
  rcases h with ⟨_, hm, hf⟩ | ⟨hm, _, hf⟩
  · exact iff_of_false (Bool.eq_false_iff.1 hf) hm
  · exact iff_of_true hf hm

/-- **After its turn a call stands where it may stand.** -/
theorem fits_after (hi : x.Idle)
    (h : Nodes.Turn (x.errand.publication name) r ns b replies ns' st) :
    (x.after replies st).Fits ns' := by
  have hlog : x.log = [] := by simpa [Entrant.failed] using hi.failed
  cases h with
  | look other stands done => exact ⟨hi.after other rfl, name, stands⟩
  | clear other stands => exact ⟨hi.after other rfl, name, stands⟩
  | raise other way absent parent stands => exact ⟨hi.after other rfl, name, stands⟩
  | put absent parent =>
    refine .inl ⟨List.mem_append_right _ List.mem_cons_self, fun hm => ?_, ?_⟩
    · rcases List.mem_append.1 hm with hm | hm
      · exact hi.not_met hm
      · exact nomatch (Prod.ext_iff.1 (List.mem_singleton.1 hm)).2
    · simp [Entrant.failed, Entrant.after, hlog, Nodes.finish]
  | meet present =>
    refine .inr ⟨List.mem_append_right _ List.mem_cons_self, fun hm => ?_, ?_⟩
    · rcases List.mem_append.1 hm with hm | hm
      · exact hi.not_succeeded hm
      · exact nomatch (Prod.ext_iff.1 (List.mem_singleton.1 hm)).2
    · simp [Entrant.failed, Entrant.after, hlog, Nodes.fail, Core.fail]

/-- **What stands at the target after a turn** has been created in it, or stood there before; in
that case the turn did not clear it away. -/
theorem held_after (h : Nodes.Turn (x.errand.publication name) r ns b replies ns' st)
    (hn : ns'.get? x.errand.target = some n) :
    (n = x.errand.node r.session ∧ (x.errand.leaf, .done) ∈ replies) ∨
      (ns.get? x.errand.target = some n ∧ ((x.after replies st).cleared = true → b = true)) := by
  cases h with
  | look other stands done =>
    refine .inr ⟨hn, fun hc => (done hc).resolve_right fun hnone => ?_⟩
    exact nomatch hnone.symm.trans hn
  | clear other stands => exact nomatch (Table.get?_erase_self ns _).symm.trans hn
  | raise other way absent parent stands =>
    have hne := (Tree.Path.ne_of_mem_ancestors way).symm
    exact .inr ⟨(Table.get?_insert_of_ne ns _ hne).symm.trans hn, fun _ => rfl⟩
  | put absent parent =>
    have hnode := (Table.get?_insert_self ns x.errand.target _).symm.trans hn
    exact .inl ⟨(Option.some.inj hnode).symm, List.mem_cons_self⟩
  | meet present => exact .inr ⟨hn, fun _ => rfl⟩

theorem contains_after (h : Nodes.Turn (x.errand.publication name) r ns b replies ns' st)
    (ho : (x.after replies st).stage = .ended) : ns'.contains x.errand.target = true := by
  cases h with
  | look other stands done => exact nomatch ho
  | clear other stands => exact nomatch ho
  | raise other way absent parent stands => exact nomatch ho
  | put absent parent => exact congrArg Option.isSome (Table.get?_insert_self ns x.errand.target _)
  | meet present => exact present

/-- A call that meets a node at its target was done with what stood there before. -/
theorem met_after (hi : x.Idle)
    (h : Nodes.Turn (x.errand.publication name) r ns b replies ns' st)
    (hm : (x.after replies st).Met) : b = true ∧ ns.contains x.errand.target = true := by
  have hr := (List.mem_append.1 hm).resolve_left hi.not_met
  cases h with
  | look other stands done => exact absurd rfl (other _ hr)
  | clear other stands => exact absurd rfl (other _ hr)
  | raise other way absent parent stands => exact absurd rfl (other _ hr)
  | put absent parent => exact nomatch (Prod.ext_iff.1 (List.mem_singleton.1 hr)).2
  | meet present => exact ⟨rfl, present⟩

end Entrant

/-! ### A turn and the other paths -/

namespace Nodes.Turn

variable {es : List Errand} {t : Tree} {p : Publication} {r : Nodes} {ns ns' : Table Node}
  {b : Bool} {replies : List (Request × Reply)} {st : Step Nodes Call} {q : String}

theorem get?_of_ne (h : Turn p r ns b replies ns' st) (hq : q ≠ p.path)
    (hway : q ∉ ancestors p.path) : ns'.get? q = ns.get? q := by
  cases h with
  | look other stands done => rfl
  | clear other stands => exact Table.get?_erase_of_ne _ hq
  | raise other way absent parent stands =>
    exact Table.get?_insert_of_ne _ _ fun heq => hway (heq ▸ way)
  | put absent parent => exact Table.get?_insert_of_ne _ _ hq
  | meet present => rfl

theorem contains_of_ne (h : Turn p r ns b replies ns' st) (hq : q ≠ p.path)
    (hthere : ns.contains q = true) : ns'.contains q = true := by
  cases h with
  | look other stands done => exact hthere
  | clear other stands => rwa [Table.contains, Table.get?_erase_of_ne _ hq]
  | raise other way absent parent stands =>
    rw [Table.contains, Table.get?_insert]
    split
    · rfl
    · exact hthere
  | put absent parent => rwa [Table.contains, Table.get?_insert_of_ne _ _ hq]
  | meet present => exact hthere

/-- **A turn keeps what is to be kept of the tree.** -/
theorem kept (h : Turn p r ns b replies ns' st) (hc : Clear es t) (hp : IsTarget es p.path)
    (hk : Kept es t.nodes ns) : Kept es t.nodes ns' := by
  cases h with
  | look other stands done => exact hk
  | clear other stands => exact hk.erase hc hp
  | raise other way absent parent stands =>
    obtain ⟨e, he, heq⟩ := hp
    exact hk.raise hc ⟨e, he, heq ▸ way⟩ absent parent
  | put absent parent => exact hk.put hc hp absent parent
  | meet present => exact hk

theorem session (h : Turn p r ns b replies ns' st) : st.registry.session = r.session := by
  cases h <;> rfl

end Nodes.Turn

/-! ### A crowd -/

namespace Crowd

variable {es : List Errand} {t : Tree} {own : Nat → SessionId} {s s' : Crowd} {x : Entrant}

/-- **A call of a crowd has gone on**: it has taken a turn, and the others are as they were. -/
inductive Went (s s' : Crowd) : Prop
  | intro (a b : List Entrant) (x : Entrant) (name : String) (replies : List (Request × Reply))
      (st : Step Nodes Nodes.Call) (before : s.entrants = a ++ x :: b)
      (after : s'.entrants = a ++ x.after replies st :: b)
      (registries : s'.registries = Function.update s.registries x.errand.registry st.registry)
      (closed : s'.server.closed = s.server.closed) (idle : x.Idle)
      (turn : Nodes.Turn (x.errand.publication name) (s.registries x.errand.registry) s.nodes
        x.cleared replies s'.nodes st)

/-- Some call at a path has created a node there, and the node is that one. -/
def MadeAt (s : Crowd) (own : Nat → SessionId) (p : String) (n : Node) : Prop :=
  ∃ y ∈ s.entrants, y.errand.target = p ∧ y.Succeeded ∧ n = y.errand.node (own y.errand.registry)

/-- **What holds while a crowd registers**, where `own` says which registry has which session. -/
structure Settling (es : List Errand) (t : Tree) (own : Nat → SessionId) (s : Crowd) : Prop where
  kept : Kept es t.nodes s.nodes
  errands : s.entrants.map (·.errand) = es
  session : ∀ k, (s.registries k).session = own k
  isOpen : ∀ x ∈ s.entrants, s.server.isClosed (own x.errand.registry) = false
  fits : ∀ x ∈ s.entrants, x.Fits s.nodes
  /-- When a call is done with what stood at its target, whatever stands there is of these calls. -/
  made : ∀ x ∈ s.entrants, x.cleared = true → ∀ n, s.nodes.get? x.errand.target = some n →
    s.MadeAt own x.errand.target n
  /-- A node stands at each target, or some call is still to create one. -/
  there : ∀ x ∈ s.entrants, s.nodes.contains x.errand.target = true ∨
    ∃ y ∈ s.entrants, y.errand.target = x.errand.target ∧ y.stage ≠ .ended
  /-- Whoever met a node has met one of another call. -/
  rival : ∀ x ∈ s.entrants, x.Met →
    ∃ y ∈ s.entrants, y.errand.target = x.errand.target ∧ y.Succeeded

theorem start_action {e : Errand} (h : e.endpoint.path = .ok e.target) (r : Nodes) :
    r.start e.action =
      r.goOn (.checkLeaf (e.publication (e.endpoint.describe r.core.kind))) := by
  unfold Errand.action Nodes.start
  simp only [h]
  rfl

theorem Settling.mem_errands (h : s.Settling es t own) (hx : x ∈ s.entrants) : x.errand ∈ es :=
  h.errands ▸ List.mem_map_of_mem hx

theorem Settling.isTarget (h : s.Settling es t own) (hx : x ∈ s.entrants) :
    IsTarget es x.errand.target :=
  ⟨x.errand, h.mem_errands hx, rfl⟩

theorem exists_append_of_getElem? {α : Type} {l : List α} {i : Nat} {a : α} (h : l[i]? = some a) :
    ∃ l₁ l₂, l = l₁ ++ a :: l₂ ∧ ∀ b, l.set i b = l₁ ++ b :: l₂ := by
  obtain ⟨hi, rfl⟩ := List.getElem?_eq_some_iff.1 h
  refine ⟨l.take i, l.drop (i + 1), ?_, fun b => ?_⟩
  · rw [List.getElem_cons_drop, List.take_append_drop]
  · rw [List.set_eq_take_append_cons_drop, if_pos hi]

/-- **A call that is not over can go on**: it makes its next request, if it has begun, and takes a
turn. -/
theorem exists_turn (hc : Clear es t) (h : s.Settling es t own) {i : Nat}
    (hx : s.entrants[i]? = some x) (hne : x.stage ≠ .ended) :
    ∃ v name replies st, s.go i = some ({ s with server := v }.take i x replies st) ∧
      replies.map (·.1) = x.next?.toList ∧ v.closed = s.server.closed ∧ x.Idle ∧
      Nodes.Turn (x.errand.publication name) (s.registries x.errand.registry) s.nodes x.cleared
        replies v.tree.nodes st := by
  have hmem := List.mem_of_getElem? hx
  have hfits := h.fits x hmem
  unfold go
  rw [hx, Option.bind_some]
  unfold proceed
  unfold Entrant.Fits at hfits
  cases hs : x.stage with
  | waiting =>
    simp only [hs] at hfits
    have hstart := start_action (hc.accepted _ (h.mem_errands hmem)).1
      (s.registries x.errand.registry)
    have hnext : x.next? = none := by rw [Entrant.next?, hs]
    dsimp only
    rw [hstart, hnext]
    exact ⟨s.server, _, [], _, rfl, rfl, rfl, hfits,
      .look (fun _ hy => absurd hy List.not_mem_nil) .check (nomatch ·)⟩
  | under c =>
    simp only [hs] at hfits
    obtain ⟨hidle, name, hst⟩ := hfits
    have hopen := h.isOpen x hmem
    rw [← h.session] at hopen
    obtain ⟨q, v', reply, ds, hneed, hans, hclosed, hturn⟩ :=
      Nodes.comes_of_stands hc h.kept (h.isTarget hmem) hopen hst
    have hcl : x.cleared = c.cleared := by rw [Entrant.cleared, hs]
    have hnext : x.next? = some q := by simp only [Entrant.next?, hs, hneed]
    simp only [hneed, hans, hnext]
    exact ⟨v', name, [(q, reply)], _, rfl, rfl, hclosed, hidle, hcl ▸ hturn⟩
  | ended => exact absurd hs hne

/-- A call that is not over can go on, and the others stay as they were. -/
theorem exists_went (hc : Clear es t) (h : s.Settling es t own) {i : Nat}
    (hx : s.entrants[i]? = some x) (hne : x.stage ≠ .ended) :
    ∃ s', s.go i = some s' ∧ s.Went s' := by
  obtain ⟨a, b, hab, hset⟩ := exists_append_of_getElem? hx
  obtain ⟨v, name, replies, st, hgo, _, hclosed, hidle, hturn⟩ := exists_turn hc h hx hne
  exact ⟨_, hgo, .intro a b x name replies st hab (hset _) rfl hclosed hidle hturn⟩

theorem exists_of_go {i : Nat} (hgo : s.go i = some s') :
    ∃ x, s.entrants[i]? = some x ∧ x.stage ≠ .ended := by
  obtain ⟨x, hx, hp⟩ := Option.bind_eq_some_iff.1 hgo
  refine ⟨x, hx, fun hs => ?_⟩
  rw [proceed, hs] at hp
  exact nomatch hp

/-- **When a call goes on, it takes a turn.** -/
theorem went_of_go (hc : Clear es t) (h : s.Settling es t own) {i : Nat} (hgo : s.go i = some s') :
    s.Went s' := by
  obtain ⟨x, hx, hne⟩ := exists_of_go hgo
  obtain ⟨s'', hgo', hw⟩ := exists_went hc h hx hne
  obtain rfl := Option.some.inj (hgo'.symm.trans hgo)
  exact hw

/-! ### Steps -/

/-- **Nobody has begun.** -/
theorem Settling.gather {v : Server} {ds : List Tree.Delivery} {rs : Nat → Nodes}
    (hv : Server.Reaches v ds) (hopen : ∀ e ∈ es, v.Alive (rs e.registry).session) :
    (gather v rs es).Settling es v.tree fun k => (rs k).session := by
  have hsound := hv.sound
  have hall : ∀ x ∈ (Crowd.gather v rs es).entrants, ∃ e ∈ es, .waiting e = x :=
    fun x hx => List.mem_map.1 hx
  refine ⟨⟨hsound.nodes.mono fun _ _ _ _ _ => trivial, fun _ _ _ => rfl, fun _ _ => .inl rfl⟩, ?_,
    fun _ => rfl, fun x hx => ?_, fun x hx => ?_, fun x hx hcl => ?_, fun x hx => ?_,
    fun x hx hm => ?_⟩
  · show (es.map Entrant.waiting).map (·.errand) = es
    rw [List.map_map]
    exact List.map_id es
  all_goals obtain ⟨e, he, rfl⟩ := hall x hx
  · exact (hopen e he).2
  · exact ⟨fun _ hy => absurd hy List.not_mem_nil, rfl⟩
  · exact nomatch hcl
  · exact .inr ⟨_, hx, rfl, (nomatch ·)⟩
  · exact absurd hm List.not_mem_nil

section

variable {a b : List Entrant} {name : String} {replies : List (Request × Reply)}
  {st : Step Nodes Nodes.Call} {y : Entrant} {p : String} {n : Node}
  (hbefore : s.entrants = a ++ x :: b) (hafter : s'.entrants = a ++ x.after replies st :: b)

include hbefore hafter

theorem mem_before (hy : y ∈ s'.entrants) : y = x.after replies st ∨ y ∈ s.entrants := by
  simp only [hbefore, hafter, List.mem_append, List.mem_cons] at hy ⊢
  rcases hy with hy | rfl | hy
  · exact .inr (.inl hy)
  · exact .inl rfl
  · exact .inr (.inr (.inr hy))

theorem mem_after (hy : y ∈ s.entrants) (hne : y ≠ x) : y ∈ s'.entrants := by
  simp only [hbefore, hafter, List.mem_append, List.mem_cons] at hy ⊢
  rcases hy with hy | rfl | hy
  · exact .inl hy
  · exact absurd rfl hne
  · exact .inr (.inr hy)

/-- Who has created a node is over, so it is not the call whose turn it was. -/
theorem mem_after_of_succeeded (hidle : x.Idle) (hy : y ∈ s.entrants) (hs : y.Succeeded) :
    y ∈ s'.entrants :=
  mem_after hbefore hafter hy fun heq => hidle.not_succeeded (heq ▸ hs)

theorem madeAt_after (hidle : x.Idle) (h : s.MadeAt own p n) : s'.MadeAt own p n := by
  obtain ⟨y, hy, hyp, hs, hn⟩ := h
  exact ⟨y, mem_after_of_succeeded hbefore hafter hidle hy hs, hyp, hs, hn⟩

theorem Settling.made_after (hc : Clear es t) (h : s.Settling es t own) (hidle : x.Idle)
    (ht : Nodes.Turn (x.errand.publication name) (s.registries x.errand.registry) s.nodes
      x.cleared replies s'.nodes st) (hy : y ∈ s'.entrants) (hcl : y.cleared = true)
    (hn : s'.nodes.get? y.errand.target = some n) : s'.MadeAt own y.errand.target n := by
  have hx : x ∈ s.entrants := by simp [hbefore]
  have hx' : x.after replies st ∈ s'.entrants := by simp [hafter]
  have hold := mem_before hbefore hafter hy
  by_cases hyx : y.errand.target = x.errand.target
  · rw [hyx] at hn ⊢
    rcases Entrant.held_after ht hn with ⟨hnode, hmem⟩ | ⟨hn', hcleared⟩
    · rw [h.session] at hnode
      exact ⟨_, hx', rfl, List.mem_append_right _ hmem, hnode⟩
    · refine madeAt_after hbefore hafter hidle ?_
      rcases hold with rfl | hy
      · exact h.made x hx (hcleared hcl) n hn'
      · exact hyx ▸ h.made y hy hcl n (hyx ▸ hn')
  · have hy := hold.resolve_left fun heq => hyx (heq ▸ rfl)
    have haway : y.errand.target ∉ ancestors x.errand.target := fun hmem =>
      hc.not_onWay (h.isTarget hy) ⟨x.errand, h.mem_errands hx, hmem⟩
    rw [ht.get?_of_ne hyx haway] at hn
    exact madeAt_after hbefore hafter hidle (h.made y hy hcl n hn)

theorem Settling.there_after (h : s.Settling es t own)
    (ht : Nodes.Turn (x.errand.publication name) (s.registries x.errand.registry) s.nodes
      x.cleared replies s'.nodes st) (hy : y ∈ s'.entrants) :
    s'.nodes.contains y.errand.target = true ∨
      ∃ z ∈ s'.entrants, z.errand.target = y.errand.target ∧ z.stage ≠ .ended := by
  have hx' : x.after replies st ∈ s'.entrants := by simp [hafter]
  by_cases hyx : y.errand.target = x.errand.target
  · by_cases ho : (x.after replies st).stage = .ended
    · exact .inl (hyx ▸ Entrant.contains_after ht ho)
    · exact .inr ⟨_, hx', hyx.symm, ho⟩
  · have hy := (mem_before hbefore hafter hy).resolve_left fun heq => hyx (heq ▸ rfl)
    rcases h.there y hy with hthere | ⟨z, hz, hzy, ho⟩
    · exact .inl (ht.contains_of_ne hyx hthere)
    · have hne : z ≠ x := fun heq => hyx (heq ▸ hzy.symm)
      exact .inr ⟨z, mem_after hbefore hafter hz hne, hzy, ho⟩

theorem Settling.rival_after (h : s.Settling es t own) (hidle : x.Idle)
    (ht : Nodes.Turn (x.errand.publication name) (s.registries x.errand.registry) s.nodes
      x.cleared replies s'.nodes st) (hy : y ∈ s'.entrants) (hm : y.Met) :
    ∃ z ∈ s'.entrants, z.errand.target = y.errand.target ∧ z.Succeeded := by
  have hx : x ∈ s.entrants := by simp [hbefore]
  have hrival : ∃ z ∈ s.entrants, z.errand.target = y.errand.target ∧ z.Succeeded := by
    rcases mem_before hbefore hafter hy with rfl | hy
    · obtain ⟨hcl, hthere⟩ := Entrant.met_after hidle ht hm
      obtain ⟨n, hn⟩ := Option.isSome_iff_exists.1 hthere
      obtain ⟨z, hz, hzx, hs, _⟩ := h.made x hx hcl n hn
      exact ⟨z, hz, hzx, hs⟩
    · exact h.rival y hy hm
  obtain ⟨z, hz, hzy, hs⟩ := hrival
  exact ⟨z, mem_after_of_succeeded hbefore hafter hidle hz hs, hzy, hs⟩

end

/-- **What holds goes on to hold when a call takes its turn.** -/
theorem Settling.went (hc : Clear es t) (h : s.Settling es t own) (hw : s.Went s') :
    s'.Settling es t own := by
  obtain ⟨a, b, x, name, replies, st, hbefore, hafter, hr, hclosed, hidle, ht⟩ := hw
  have hx : x ∈ s.entrants := by simp [hbefore]
  have hp := h.isTarget hx
  refine ⟨ht.kept hc hp h.kept, ?_, fun k => ?_, fun y hy => ?_, fun y hy => ?_,
    fun y hy hcl n hn => h.made_after hbefore hafter hc hidle ht hy hcl hn,
    fun y hy => h.there_after hbefore hafter ht hy,
    fun y hy hm => h.rival_after hbefore hafter hidle ht hy hm⟩
  · rw [← h.errands, hbefore, hafter]
    simp [Entrant.after]
  · rw [hr]
    by_cases hk : k = x.errand.registry
    · subst hk
      rw [Function.update_self, ht.session, h.session]
    · rw [Function.update_of_ne hk, h.session]
  · have hopen : s.server.isClosed (own y.errand.registry) = false := by
      rcases mem_before hbefore hafter hy with rfl | hy
      · exact h.isOpen x hx
      · exact h.isOpen y hy
    unfold Server.isClosed at hopen ⊢
    rwa [hclosed]
  · rcases mem_before hbefore hafter hy with rfl | hy
    · exact Entrant.fits_after hidle ht
    · refine (h.fits y hy).mono fun q hq => ht.contains_of_ne ?_
      rintro rfl
      exact hc.not_onWay hp ⟨y.errand, h.mem_errands hy, hq⟩

theorem Settling.aside {v : Server} {rs : Nat → Nodes} (h : s.Settling es t own)
    (ha : s.Aside v rs) : Settling es t own ⟨v, rs, s.entrants⟩ where
  kept := by
    show Kept es t.nodes v.tree.nodes
    exact ha.nodes ▸ h.kept
  errands := h.errands
  session k := (ha.session k).trans (h.session k)
  isOpen x hx := by
    have hopen := ha.isClosed x hx
    rw [h.session] at hopen
    exact hopen (h.isOpen x hx)
  fits x hx := (h.fits x hx).mono fun _ _ hq => by rwa [nodes, ha.nodes]
  made x hx hcl n hn := h.made x hx hcl n (ha.nodes ▸ hn)
  there x hx := (h.there x hx).imp_left fun hq => by rwa [nodes, ha.nodes]
  rival := h.rival

/-- **Each step keeps it.** -/
theorem Settling.next (hc : Clear es t) (h : s.Settling es t own) (hs : Next s s') :
    s'.Settling es t own := by
  cases hs with
  | go i hgo => exact h.went hc (went_of_go hc h hgo)
  | aside ha => exact h.aside ha

/-- **Any number of steps keep it.** -/
theorem Settling.runs (hc : Clear es t) (h : s.Settling es t own) (hs : Runs s s') :
    s'.Settling es t own := by
  induction hs with
  | refl => exact h
  | tail _ hs ih => exact ih.next hc hs

end Crowd

end Discovery.Registry
