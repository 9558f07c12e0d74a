import Discovery.Proofs.Registry.Confluence
import Mathlib.Data.List.Induction

/-!
# Who writes last

Registries register one endpoint at the same time, and nothing else happens.  Each call asks once
for its node to be created.  If it meets a node, it has been overtaken: since it found the place
free, or made it free, another call has created a node there.  So when all calls are over, the node
is that of the call which was the last to create one, and this need not be the call which was the
last to ask for it.

* `writers`, `winners`: the calls in the order in which they asked for their node, and those of
  them that were given it.
* `Overtaken`: another call came in between.
* `Entrant.Bid`: what a turn comes to at the target; `exists_bids`: whoever goes on takes such a
  turn.
* `Written`: what holds at any time; `Written.go`: a turn keeps it.
* `last_winner_of_goes`: what the calls come to.  `lost_write_of_twins`: the last call to ask is not
  given its node, and has failed.
-/

namespace Discovery.Registry

open Discovery.Tree (Node Request Reply Server SessionId)
open Discovery.Tree.Path (ancestors isNode)

/-! ### A turn at its target -/

namespace Entrant

variable {x : Entrant} {name : String} {r : Nodes} {ns ns' : Table Node} {b : Bool}
  {replies : List (Request × Reply)} {st : Step Nodes Nodes.Call}

/-- Whether a call asks for its node next. -/
def writes (x : Entrant) : Bool :=
  x.next? == some x.errand.leaf

/-- **What a turn comes to at the target of its call**, which goes on from `x` to `x'`; the node
that it is to create is `n`. -/
inductive Bid (x x' : Entrant) (ns ns' : Table Node) (n : Node) : Prop
  /-- The call does not ask for its node.  If there is a node, it was there before. -/
  | none (silent : x.writes = false) (stage : x'.stage ≠ .ended)
      (held : ∀ m, ns'.get? x.errand.target = some m →
        ns.get? x.errand.target = some m ∧ (x'.cleared = true → x.cleared = true))
  /-- The call is given its node. -/
  | won (asks : x.writes = true) (stage : x'.stage = .ended) (failed : x'.failed = false)
      (absent : ns.get? x.errand.target = .none) (made : ns'.get? x.errand.target = some n)
  /-- The call meets a node, and has failed. -/
  | lost (asks : x.writes = true) (stage : x'.stage = .ended) (failed : x'.failed = true)
      (cleared : x.cleared = true) (present : ns.contains x.errand.target = true) (same : ns' = ns)

theorem Bid.writes_iff {x' : Entrant} {n : Node} (h : x.Bid x' ns ns' n) :
    x.writes = true ↔ x'.stage = .ended := by
  cases h with
  | none silent stage held => exact iff_of_false (by rw [silent]; exact Bool.false_ne_true) stage
  | won asks stage failed absent made => exact iff_of_true asks stage
  | lost asks stage failed cleared present same => exact iff_of_true asks stage

theorem writes_iff (h : replies.map (·.1) = x.next?.toList) :
    x.writes = true ↔ x.errand.leaf ∈ replies.map (·.1) := by
  rw [h, Option.mem_toList, writes, beq_iff_eq]

/-- **A turn is a bid.** -/
theorem bid_of_turn (hi : x.Idle) (hnext : replies.map (·.1) = x.next?.toList)
    (hb : x.cleared = b) (h : Nodes.Turn (x.errand.publication name) r ns b replies ns' st) :
    x.Bid (x.after replies st) ns ns' (x.errand.node r.session) := by
  have hsilent : (∀ y ∈ replies, y.1 ≠ x.errand.leaf) → x.writes = false := by
    intro hother
    rw [Bool.eq_false_iff]
    intro hw
    obtain ⟨y, hy, hleaf⟩ := List.mem_map.1 ((writes_iff hnext).1 hw)
    exact hother y hy hleaf
  have hheld : (∀ y ∈ replies, y.1 ≠ x.errand.leaf) → ∀ m, ns'.get? x.errand.target = some m →
      ns.get? x.errand.target = some m ∧
        ((x.after replies st).cleared = true → x.cleared = true) := by
    intro hother m hm
    rw [hb]
    exact (held_after h hm).resolve_left fun hmade => hother _ hmade.2 rfl
  have hfits := fits_after hi h
  cases h with
  | look other stands done => exact .none (hsilent other) (nomatch ·) (hheld other)
  | clear other stands => exact .none (hsilent other) (nomatch ·) (hheld other)
  | raise other way absent parent stands =>
    exact .none (hsilent other) (nomatch ·) (hheld other)
  | put absent parent =>
    have hmade : (x.after [(x.errand.leaf, .done)] r.finish).Succeeded :=
      List.mem_append_right _ (List.mem_singleton_self _)
    exact .won ((writes_iff hnext).2 List.mem_cons_self) rfl (hfits.failed_of_succeeded hmade).2
      absent (Table.get?_insert_self ns _ _)
  | meet present =>
    rcases hfits with ⟨_, hmet, _⟩ | ⟨_, _, hfailed⟩
    · exact absurd (List.mem_append_right _ (List.mem_singleton_self _)) hmet
    · exact .lost ((writes_iff hnext).2 List.mem_cons_self) rfl hfailed hb present rfl

end Entrant

namespace Crowd

variable {es : List Errand} {t : Tree} {own : Nat → SessionId} {s₀ s s' : Crowd} {x x' : Entrant}
  {is : List Nat} {i j : Nat} {p : String}

def writing (s : Crowd) (i : Nat) : Bool :=
  s.entrants[i]?.any (·.writes)

/-- The calls in the order in which they asked for their node. -/
def writers (s : Crowd) : List Nat → List Nat
  | [] => []
  | i :: is =>
    match s.go i with
    | some t => (if s.writing i then [i] else []) ++ t.writers is
    | none => []

def failedAt (s : Crowd) (i : Nat) : Bool :=
  s.entrants[i]?.any (·.failed)

/-- The calls that were given their node, in the order in which they were, when calls have gone on
from `s₀` to `s`. -/
def winners (s₀ : Crowd) (is : List Nat) (s : Crowd) : List Nat :=
  (s₀.writers is).filter fun i => !s.failedAt i

/-- **A call is overtaken**: when it is done with what stood at its target, and before it is over,
another call creates a node there. -/
def Overtaken (s₀ : Crowd) (is : List Nat) (i : Nat) : Prop :=
  ∃ before j after u x y, is = before ++ j :: after ∧ s₀.goes before = some u ∧ j ≠ i ∧
    u.entrants[i]? = some x ∧ x.stage ≠ .ended ∧ x.cleared = true ∧
    u.entrants[j]? = some y ∧ y.writes = true ∧ y.errand.target = x.errand.target ∧
    u.nodes.get? x.errand.target = none

/-! ### One more turn -/

theorem goes_concat (s : Crowd) (is : List Nat) (i : Nat) :
    s.goes (is ++ [i]) = (s.goes is).bind (·.go i) := by
  unfold goes
  rw [List.foldlM_append]
  refine congrArg _ (funext fun u => ?_)
  exact bind_pure (u.go i)

theorem writers_concat {u : Crowd} (hgo : u.go i = some s') :
    ∀ {is : List Nat} {s : Crowd}, s.goes is = some u →
      s.writers (is ++ [i]) = s.writers is ++ if u.writing i then [i] else [] := by
  intro is
  induction is with
  | nil =>
    intro s h
    obtain rfl := Option.some.inj h
    show (match s.go i with | some t => _ ++ t.writers [] | none => _) = _
    rw [hgo]
    simp [writers]
  | cons j is ih =>
    intro s h
    obtain ⟨v, hv, h⟩ := Option.bind_eq_some_iff.1 h
    rw [List.cons_append, writers, writers, hv]
    dsimp only
    rw [ih h, List.append_assoc]

theorem Overtaken.concat (h : Overtaken s₀ is i) (j : Nat) : Overtaken s₀ (is ++ [j]) i := by
  obtain ⟨before, k, after, u, x, y, rfl, hrest⟩ := h
  exact ⟨before, k, after ++ [j], u, x, y, by simp, hrest⟩

/-- **The call that is listed at `i` has gone on**, with a bid, and the others are as they were. -/
structure Bids (own : Nat → SessionId) (i : Nat) (x x' : Entrant) (s s' : Crowd) : Prop where
  before : s.entrants[i]? = some x
  after : s'.entrants[i]? = some x'
  other : ∀ j, j ≠ i → s'.entrants[j]? = s.entrants[j]?
  errand : x'.errand = x.errand
  stage : x.stage ≠ .ended
  bid : x.Bid x' s.nodes s'.nodes (x.errand.node (own x.errand.registry))

/-- **When a call goes on, it bids.** -/
theorem exists_bids (hc : Clear es t) (h : s.Settling es t own) (hgo : s.go i = some s') :
    ∃ x x', Bids own i x x' s s' := by
  obtain ⟨x, hx, hne⟩ := exists_of_go hgo
  obtain ⟨v, name, replies, st, hgo', hnext, _, hidle, hturn⟩ := exists_turn hc h hx hne
  obtain rfl := Option.some.inj (hgo'.symm.trans hgo)
  have hbid := Entrant.bid_of_turn hidle hnext rfl hturn
  rw [h.session] at hbid
  refine ⟨x, x.after replies st, hx, ?_, fun j hj => ?_, rfl, hne, hbid⟩
  · exact List.getElem?_set_self (List.getElem?_eq_some_iff.1 hx).1
  · exact List.getElem?_set_ne (Ne.symm hj)

/-! ### What holds at any time -/

/-- **The calls that asked for their node at `p`**: they are those that are over, and each of them
asked once.  A node at `p` is that of the last one which was given it, if there is one.  Whoever has
failed was overtaken, and so is whoever is still to meet a node. -/
structure Written (s₀ : Crowd) (own : Nat → SessionId) (p : String) (is : List Nat) (s : Crowd) :
    Prop where
  asked : ∀ i, i ∈ s₀.writers is ↔ ∃ x, s.entrants[i]? = some x ∧ x.stage = .ended
  nodup : (s₀.writers is).Nodup
  last : ∀ i x n, (winners s₀ is s).getLast? = some i → s.entrants[i]? = some x →
    s.nodes.get? p = some n → n = x.errand.node (own x.errand.registry)
  met : ∀ i x, s.entrants[i]? = some x → x.failed = true → Overtaken s₀ is i
  meets : ∀ i x, s.entrants[i]? = some x → x.stage ≠ .ended → x.cleared = true →
    s.nodes.contains p = true → Overtaken s₀ is i

theorem written_gather (v : Server) (rs : Nat → Nodes) (es : List Errand) :
    (gather v rs es).Written own p [] (gather v rs es) := by
  have hwaiting : ∀ {i : Nat} {x : Entrant}, (gather v rs es).entrants[i]? = some x →
      ∃ e, Entrant.waiting e = x := by
    intro i x hx
    obtain ⟨e, _, he⟩ := List.mem_map.1 (List.mem_of_getElem? hx)
    exact ⟨e, he⟩
  refine ⟨fun i => ⟨fun h => absurd h List.not_mem_nil, ?_⟩, List.nodup_nil, nofun, ?_, ?_⟩
  · rintro ⟨x, hx, hover⟩
    obtain ⟨e, rfl⟩ := hwaiting hx
    exact nomatch hover
  · intro i x hx hfailed
    obtain ⟨e, rfl⟩ := hwaiting hx
    exact nomatch hfailed
  · intro i x hx _ hcleared
    obtain ⟨e, rfl⟩ := hwaiting hx
    exact nomatch hcleared

theorem Bids.writers_eq (hb : Bids own i x x' s s') (hrun : s₀.goes is = some s)
    (hgo : s.go i = some s') :
    s₀.writers (is ++ [i]) = s₀.writers is ++ if x.writes then [i] else [] := by
  rw [writers_concat hgo hrun, writing, hb.before]
  rfl

section

variable (h : s₀.Written own p is s) (hb : Bids own i x x' s s')

include h hb

theorem Written.not_mem : i ∉ s₀.writers is := by
  intro hmem
  obtain ⟨y, hy, hover⟩ := (h.asked i).1 hmem
  rw [hb.before, Option.some.injEq] at hy
  exact hb.stage (hy ▸ hover)

theorem Written.met_go (hs' : s'.Settling es t own) (hp : x.errand.target = p) (j : Nat)
    (y : Entrant) (hy : s'.entrants[j]? = some y) (hfailed : y.failed = true) :
    Overtaken s₀ (is ++ [i]) j := by
  by_cases hj : j = i
  · subst hj
    obtain rfl := Option.some.inj (hb.after.symm.trans hy)
    cases hb.bid with
    | none silent stage held =>
      have hidle := (hs'.fits x' (List.mem_of_getElem? hb.after)).idle stage
      exact nomatch hidle.failed.symm.trans hfailed
    | won asks stage failed absent made => exact nomatch failed.symm.trans hfailed
    | lost asks stage failed cleared present same =>
      exact (h.meets j x hb.before hb.stage cleared (hp ▸ present)).concat j
  · exact (h.met j y ((hb.other j hj).symm.trans hy) hfailed).concat i

variable (hrun : s₀.goes is = some s) (hgo : s.go i = some s')

include hrun hgo

theorem Written.winners_eq : winners s₀ (is ++ [i]) s' =
    winners s₀ is s ++ if x.writes && !x'.failed then [i] else [] := by
  have hself : s'.failedAt i = x'.failed := by
    rw [failedAt, hb.after]
    rfl
  have hother : ∀ j ∈ s₀.writers is, (!s'.failedAt j) = !s.failedAt j := by
    intro j hj
    have hne : j ≠ i := fun heq => h.not_mem hb (heq ▸ hj)
    rw [failedAt, failedAt, hb.other j hne]
  rw [winners, hb.writers_eq hrun hgo, List.filter_append, List.filter_congr hother]
  cases hw : x.writes <;> cases hf : x'.failed <;> simp [winners, hself, hf]

theorem Written.asked_go (j : Nat) :
    j ∈ s₀.writers (is ++ [i]) ↔ ∃ y, s'.entrants[j]? = some y ∧ y.stage = .ended := by
  rw [hb.writers_eq hrun hgo, List.mem_append, h.asked]
  by_cases hj : j = i
  · subst hj
    simp only [hb.before, hb.after, Option.some.injEq, exists_eq_left', ← hb.bid.writes_iff]
    cases x.writes <;> simp [hb.stage]
  · rw [hb.other j hj]
    cases x.writes <;> simp [hj]

theorem Written.nodup_go : (s₀.writers (is ++ [i])).Nodup := by
  rw [hb.writers_eq hrun hgo]
  cases x.writes with
  | false => simpa using h.nodup
  | true => simpa [List.nodup_append] using ⟨h.nodup, fun j hj heq => h.not_mem hb (heq ▸ hj)⟩

theorem Written.last_go (hp : x.errand.target = p) (j : Nat) (y : Entrant) (n : Node)
    (hlast : (winners s₀ (is ++ [i]) s').getLast? = some j) (hy : s'.entrants[j]? = some y)
    (hn : s'.nodes.get? p = some n) : n = y.errand.node (own y.errand.registry) := by
  subst hp
  have hother : (winners s₀ is s).getLast? = some j → s.nodes.get? x.errand.target = some n →
      n = y.errand.node (own y.errand.registry) := by
    intro hlast hn
    have hmem : j ∈ s₀.writers is := (List.mem_filter.1 (List.mem_of_getLast? hlast)).1
    have hne : j ≠ i := fun heq => h.not_mem hb (heq ▸ hmem)
    exact h.last j y n hlast ((hb.other j hne).symm.trans hy) hn
  rw [h.winners_eq hb hrun hgo] at hlast
  cases hb.bid with
  | none silent stage held =>
    rw [silent, Bool.false_and, if_neg Bool.false_ne_true, List.append_nil] at hlast
    exact hother hlast (held n hn).1
  | won asks stage failed absent made =>
    rw [asks, failed, Bool.not_false, Bool.and_true, if_pos rfl, List.getLast?_concat,
      Option.some.injEq] at hlast
    subst hlast
    obtain rfl := Option.some.inj (hb.after.symm.trans hy)
    rw [hb.errand]
    exact Option.some.inj (hn.symm.trans made)
  | lost asks stage failed cleared present same =>
    rw [failed, Bool.not_true, Bool.and_false, if_neg Bool.false_ne_true, List.append_nil] at hlast
    exact hother hlast (same ▸ hn)

/-- A call that is to meet a node met it before this turn, or the turn has created the node. -/
theorem Written.meets_go (hp : ∀ z ∈ s.entrants, z.errand.target = p) (j : Nat) (y : Entrant)
    (hy : s'.entrants[j]? = some y) (hstage : y.stage ≠ .ended) (hcleared : y.cleared = true)
    (hthere : s'.nodes.contains p = true) : Overtaken s₀ (is ++ [i]) j := by
  have hx := hp x (List.mem_of_getElem? hb.before)
  obtain ⟨m, hm⟩ := Option.isSome_iff_exists.1 hthere
  by_cases hj : j = i
  · subst hj
    obtain rfl := Option.some.inj (hb.after.symm.trans hy)
    cases hb.bid with
    | none silent stage held =>
      subst hx
      have hn := held m hm
      exact (h.meets j x hb.before hb.stage (hn.2 hcleared)
        (Option.isSome_iff_exists.2 ⟨m, hn.1⟩)).concat j
    | won asks stage failed absent made => exact absurd stage hstage
    | lost asks stage failed cleared present same => exact absurd stage hstage
  · have hold := (hb.other j hj).symm.trans hy
    cases hb.bid with
    | none silent stage held =>
      have hn := (held m (hx ▸ hm)).1
      exact (h.meets j y hold hstage hcleared
        (Option.isSome_iff_exists.2 ⟨m, hx ▸ hn⟩)).concat i
    | won asks stage failed absent made =>
      have htarget := hx.trans (hp y (List.mem_of_getElem? hold)).symm
      exact ⟨is, i, [], s, y, x, rfl, hrun, Ne.symm hj, hold, hstage, hcleared, hb.before, asks,
        htarget, htarget ▸ absent⟩
    | lost asks stage failed cleared present same =>
      exact (h.meets j y hold hstage hcleared (same ▸ hthere)).concat i

end

/-- **A turn keeps what holds of the calls.** -/
theorem Written.go (hc : Clear es t) (hs : s.Settling es t own) (hp : ∀ e ∈ es, e.target = p)
    (h : s₀.Written own p is s) (hrun : s₀.goes is = some s) (hgo : s.go i = some s') :
    s₀.Written own p (is ++ [i]) s' := by
  obtain ⟨x, x', hb⟩ := exists_bids hc hs hgo
  have hall : ∀ z ∈ s.entrants, z.errand.target = p := fun z hz => hp _ (hs.mem_errands hz)
  have hx := hall x (List.mem_of_getElem? hb.before)
  exact ⟨h.asked_go hb hrun hgo, h.nodup_go hb hrun hgo, h.last_go hb hrun hgo hx,
    h.met_go hb (hs.went hc (went_of_go hc hs hgo)) hx, h.meets_go hb hrun hgo hall⟩

/-- **Whenever calls have gone on, it holds of them.** -/
theorem written_of_goes {v : Server} {rs : Nat → Nodes} (hc : Clear es t)
    (h₀ : (gather v rs es).Settling es t own) (hp : ∀ e ∈ es, e.target = p) :
    ∀ {is : List Nat} {s : Crowd}, (gather v rs es).goes is = some s →
      (gather v rs es).Written own p is s := by
  intro is
  induction is using List.reverseRecOn with
  | nil =>
    intro s h
    exact Option.some.inj h ▸ written_gather v rs es
  | append_singleton is i ih =>
    intro s h
    rw [goes_concat] at h
    obtain ⟨u, hu, hgo⟩ := Option.bind_eq_some_iff.1 h
    exact (ih hu).go hc (h₀.runs hc (runs_of_goes hu)) hp hu hgo

/-! ### The end -/

/-- **What calls to register at `p` come to**, when they have gone on to `s` and are all over. -/
structure Raced (v : Server) (rs : Nat → Nodes) (es : List Errand) (p : String) (is : List Nat)
    (s : Crowd) : Prop where
  errands : s.entrants.map (·.errand) = es
  /-- Each call asked once for its node. -/
  once : ((gather v rs es).writers is).Perm (List.range es.length)
  /-- The node is that of the last call which was given its node. -/
  leaf : ∃ i x, (winners (gather v rs es) is s).getLast? = some i ∧ s.entrants[i]? = some x ∧
    x.failed = false ∧ s.nodes.get? p = some (x.errand.node (rs x.errand.registry).session)
  /-- Those calls have failed that met a node which they were to create. -/
  failed_iff : ∀ x ∈ s.entrants, x.failed = true ↔ x.Met
  /-- Another call came in between. -/
  overtaken : ∀ i x, s.entrants[i]? = some x → x.failed = true → Overtaken (gather v rs es) is i
  /-- The registries have counted these failures. -/
  counted : s.Tally rs
  /-- If no call was overtaken, none has failed, and the last one to ask for its node was given
  it. -/
  unrivalled : (∀ i, ¬ Overtaken (gather v rs es) is i) → (∀ x ∈ s.entrants, x.failed = false) ∧
    winners (gather v rs es) is s = (gather v rs es).writers is

theorem clear_of_path {v : Server} (hpath : ∀ e ∈ es, e.endpoint.path = .ok p)
    (hnode : isNode p = true) (hbelow : v.tree.hasChildren p = false)
    (hway : ∀ q ∈ ancestors p, v.tree.isEphemeral? q ≠ some true) :
    Clear es v.tree ∧ ∀ e ∈ es, e.target = p := by
  have htarget : ∀ e ∈ es, e.target = p := fun e he => by rw [Errand.target, hpath e he]
  refine ⟨⟨fun e he => ?_, fun e he f hf => .inl ?_, fun e he => ?_, fun e he => ?_⟩, htarget⟩
  · rw [htarget e he]
    exact ⟨hpath e he, hnode⟩
  · rw [htarget e he, htarget f hf]
  · rw [htarget e he]
    exact hbelow
  · rw [htarget e he]
    exact hway

theorem Written.once (h : s₀.Written own p is s) (hover : ∀ x ∈ s.entrants, x.stage = .ended) :
    (s₀.writers is).Perm (List.range s.entrants.length) := by
  refine (List.perm_ext_iff_of_nodup h.nodup List.nodup_range).2 fun i => ?_
  rw [h.asked, List.mem_range]
  constructor
  · rintro ⟨x, hx, _⟩
    exact (List.getElem?_eq_some_iff.1 hx).1
  · intro hi
    have hx := List.getElem?_eq_getElem hi
    exact ⟨_, hx, hover _ (List.mem_of_getElem? hx)⟩

/-- **The last call that was given its node has its node there**, if any has. -/
theorem Written.leaf (h : s₀.Written own p is s) (hs : s.Settling es t own)
    (hp : ∀ e ∈ es, e.target = p) (hover : ∀ x ∈ s.entrants, x.stage = .ended)
    (hne : s.entrants ≠ []) :
    ∃ i x, (winners s₀ is s).getLast? = some i ∧ s.entrants[i]? = some x ∧ x.failed = false ∧
      s.nodes.get? p = some (x.errand.node (own x.errand.registry)) := by
  obtain ⟨x, hx⟩ := List.exists_mem_of_ne_nil _ hne
  have hthere : s.nodes.contains x.errand.target = true :=
    (hs.there x hx).resolve_right fun ⟨y, hy, _, hstage⟩ => hstage (hover y hy)
  obtain ⟨n, hn⟩ := Option.isSome_iff_exists.1 hthere
  have hcleared : x.cleared = true := by rw [Entrant.cleared, hover x hx]
  obtain ⟨y, hy, _, hmade, _⟩ := hs.made x hx hcleared n hn
  obtain ⟨j, hj⟩ := List.mem_iff_getElem?.1 hy
  have hwon : j ∈ winners s₀ is s := by
    refine List.mem_filter.2 ⟨(h.asked j).2 ⟨y, hj, hover y hy⟩, ?_⟩
    rw [failedAt, hj, Option.any_some, ((hs.fits y hy).failed_of_succeeded hmade).2]
    rfl
  have hlast := List.getLast?_eq_getLast_of_ne_nil (List.ne_nil_of_mem hwon)
  generalize (winners s₀ is s).getLast _ = i at hlast
  obtain ⟨hi, hfailed⟩ := List.mem_filter.1 (List.mem_of_getLast? hlast)
  obtain ⟨z, hz, _⟩ := (h.asked i).1 hi
  rw [failedAt, hz, Option.any_some, Bool.not_eq_true'] at hfailed
  rw [hp _ (hs.mem_errands hx)] at hn
  exact ⟨i, z, hlast, hz, hfailed, h.last i z n hlast hz hn ▸ hn⟩

/-- **Of registrations at one path at the same time, the last one that was given its node has its
node there.**  Each call asks once for its node, and those have failed that met one; whoever has
failed was overtaken.  So where nobody is overtaken, the last one to ask has its node there. -/
theorem last_winner_of_goes {v : Server} {ds : List Tree.Delivery} {rs : Nat → Nodes}
    (hv : Server.Reaches v ds) (hopen : ∀ e ∈ es, v.Alive (rs e.registry).session)
    (hpath : ∀ e ∈ es, e.endpoint.path = .ok p) (hnode : isNode p = true)
    (hbelow : v.tree.hasChildren p = false)
    (hway : ∀ q ∈ ancestors p, v.tree.isEphemeral? q ≠ some true) (hne : es ≠ [])
    (hrun : (gather v rs es).goes is = some s) (hover : ∀ x ∈ s.entrants, x.stage = .ended) :
    Raced v rs es p is s := by
  obtain ⟨hc, hp⟩ := clear_of_path hpath hnode hbelow hway
  have h₀ := Settling.gather hv hopen
  have hs := h₀.runs hc (runs_of_goes hrun)
  have h := written_of_goes hc h₀ hp hrun
  have hlength : s.entrants.length = es.length := by rw [← hs.errands, List.length_map]
  have hsome : s.entrants ≠ [] := by
    intro hnil
    exact hne (hs.errands.symm.trans (congrArg _ hnil))
  refine ⟨hs.errands, hlength ▸ h.once hover, h.leaf hs hp hover hsome,
    fun x hx => (hs.fits x hx).failed_iff (hover x hx), h.met,
    (tally_gather v rs es).runs hc h₀ (runs_of_goes hrun), fun hfree => ?_⟩
  have hnone : ∀ x ∈ s.entrants, x.failed = false := by
    intro x hx
    obtain ⟨i, hi⟩ := List.mem_iff_getElem?.1 hx
    exact Bool.eq_false_iff.2 fun hfailed => hfree i (h.met i x hi hfailed)
  refine ⟨hnone, List.filter_eq_self.2 fun i hi => ?_⟩
  obtain ⟨x, hx, _⟩ := (h.asked i).1 hi
  rw [failedAt, hx, Option.any_some, hnone x (List.mem_of_getElem? hx)]
  rfl

/-- Two registries are to register one endpoint, with data of their own. -/
def twins : List Errand :=
  [⟨0, ⟨"h", 1, ["a", "b"], ∅⟩, .ofList [("v", "1")], true⟩,
    ⟨1, ⟨"h", 1, ["a", "b"], ∅⟩, .ofList [("v", "2")], true⟩]

/-- Both calls find that no node is there, and then each of them asks for its own. -/
def sideBySide : List Nat :=
  [0, 1, 0, 1, 0, 1, 0, 1]

theorem last_winner_of_twins : ∃ s, (gather shared pair twins).goes sideBySide = some s ∧
    Raced shared pair twins "/a/b" sideBySide s := by
  have hreach : Server.Reaches shared [] :=
    .act (.request 1 (.create "/a" [7] .persistent))
      (.act .connect (.act .connect .start trivial) trivial) ⟨by decide, by decide⟩
  have hopen : ∀ e ∈ twins, shared.Alive (pair e.registry).session := by
    show ∀ e ∈ twins, (1 ≤ (pair e.registry).session ∧
      (pair e.registry).session ≤ shared.opened) ∧
        shared.isClosed (pair e.registry).session = false
    decide
  obtain ⟨s, hs, hover⟩ : ∃ s, (gather shared pair twins).goes sideBySide = some s ∧
      ∀ x ∈ s.entrants, x.stage = .ended := ⟨_, rfl, by decide⟩
  exact ⟨s, hs, last_winner_of_goes hreach hopen (by decide) (by decide) (by decide) (by decide)
    (by decide) hs hover⟩

/-- **The last call to ask for its node may lose**: it meets the node of the other one and has
failed, and its data are not there in the end. -/
theorem lost_write_of_twins :
    (∀ e ∈ twins, e.endpoint.path = .ok "/a/b" ∧
      shared.isClosed (pair e.registry).session = false) ∧
    shared.tree.hasChildren "/a/b" = false ∧
    (∀ q ∈ ancestors "/a/b", shared.tree.isEphemeral? q ≠ some true) ∧
    ∃ s x y, (gather shared pair twins).goes sideBySide = some s ∧ s.entrants = [x, y] ∧
      (∀ z ∈ s.entrants, z.stage = .ended) ∧
      (gather shared pair twins).writers sideBySide = [0, 1] ∧ y.failed = true ∧
      (s.registries 1).failures "register" = 1 ∧
      s.nodes.get? "/a/b" = some (x.errand.node 1) ∧
      x.errand.data.encode ≠ y.errand.data.encode :=
  ⟨by decide, by decide, by decide, _, _, _, rfl, rfl, by decide, by decide, by decide, by decide,
    by decide, by decide⟩

end Crowd

end Discovery.Registry
