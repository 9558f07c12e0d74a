import Discovery.Proofs.Tree.Operation

/-!
# Sound trees

A tree is sound if its nodes hang together and its watches belong to someone: each path names a
node, each node below the top stands under a node that stays, and nodes and watches have owners
that are alive.

* `NodesSound.above`: whatever a path in a sound tree lies below is there too, and stays.  So an
  owned node has nothing below it and can always be deleted.
* `Sound.create`, `Sound.delete`, `Sound.write`, `Sound.watch`, `Sound.unwatch`: each operation
  keeps a tree sound.
* `Sound.expire`: when a session ends, the tree is sound without it.
-/

namespace Discovery.Tree

variable {alive alive' : SessionId → Prop}

/-- The nodes of a tree hang together, and their owners are alive. -/
structure NodesSound (alive : SessionId → Prop) (ns : Table Node) : Prop where
  isNode : ∀ p n, ns.get? p = some n → Path.isNode p = true
  /-- A node that is not at the top stands under a node without an owner. -/
  parent : ∀ p n q, ns.get? p = some n → Path.parent? p = some q →
    ∃ m, ns.get? q = some m ∧ m.owner = none
  owner : ∀ p n s, ns.get? p = some n → n.owner = some s → alive s

/-- The watches of a tree: no path is listed in vain, no listener twice on one path, and who
watches is alive. -/
structure WatchesSound (alive : SessionId → Prop) (wt : Table (List Watch)) : Prop where
  ne_nil : ∀ p ws, wt.get? p = some ws → ws ≠ []
  nodup : ∀ p ws, wt.get? p = some ws → (ws.map (·.listener)).Nodup
  session : ∀ p ws, wt.get? p = some ws → ∀ w ∈ ws, alive w.session

/-- **A sound tree**, where `alive` says which sessions are alive. -/
structure Sound (alive : SessionId → Prop) (t : Tree) : Prop where
  nodes : NodesSound alive t.nodes
  watches : WatchesSound alive t.watches

theorem sound_empty : Sound alive ∅ where
  nodes := ⟨fun _ _ h => (nomatch h), fun _ _ _ h => (nomatch h), fun _ _ _ h => (nomatch h)⟩
  watches := ⟨fun _ _ h => (nomatch h), fun _ _ h => (nomatch h), fun _ _ h => (nomatch h)⟩

/-! ### Nodes -/

theorem ne_empty_of_isNode {p : String} (h : Path.isNode p = true) : p.toList ≠ [] := by
  intro hp
  simp [Path.isNode, hp] at h

namespace NodesSound

variable {ns : Table Node} {p : String}

theorem mono (h : NodesSound alive ns)
    (hs : ∀ p n s, ns.get? p = some n → n.owner = some s → alive' s) : NodesSound alive' ns :=
  ⟨h.isNode, h.parent, hs⟩

/-- **Whatever a path lies below is there too, and stays.**  The path has parents all the way up
to there, and none of them has an owner. -/
theorem above (h : NodesSound alive ns) (hp : p.toList ≠ []) :
    ∀ {q : String} {n : Node}, ns.get? q = some n → Path.startsWith q (Path.below p) = true →
      ∃ m, ns.get? p = some m ∧ m.owner = none := by
  intro q
  induction hl : q.toList.length using Nat.strong_induction_on generalizing q with
  | _ l ih =>
    intro n hq hpq
    obtain ⟨rest, hrest⟩ := Path.startsWith_iff.1 hpq
    rw [Path.toList_below, List.append_assoc, List.singleton_append] at hrest
    by_cases hs : '/' ∈ rest
    · -- a slash further on: the parent lies below `p` as well, and is shorter
      obtain ⟨b, a, hab, hb⟩ := List.eq_append_cons_of_mem (List.mem_reverse.2 hs)
      have hrest' : rest = a.reverse ++ '/' :: b.reverse := by
        rw [← List.reverse_reverse rest, hab]
        simp
      have hpar : Path.parent? q = some (String.ofList (p.toList ++ '/' :: a.reverse)) := by
        rw [Path.parent?_eq_some_iff, String.toList_ofList]
        refine ⟨by simp, b.reverse, by simpa using hb, ?_⟩
        rw [← hrest, hrest']
        simp
      obtain ⟨m, hm, _⟩ := h.parent q n _ hq hpar
      refine ih _ ?_ rfl hm ?_
      · rw [← hl, ← hrest, hrest', String.toList_ofList]
        simp
      · rw [Path.startsWith_iff, Path.toList_below, String.toList_ofList]
        exact ⟨a.reverse, by simp⟩
    · exact h.parent q n p hq (Path.parent?_eq_some_iff.2 ⟨hp, rest, hs, hrest.symm⟩)

theorem no_child (h : NodesSound alive ns) {n : Node} {s : SessionId} (hn : ns.get? p = some n)
    (ho : n.owner = some s) {q : String} {m : Node} (hq : ns.get? q = some m) :
    Path.startsWith q (Path.below p) = false := by
  rw [Bool.eq_false_iff]
  intro hpq
  obtain ⟨n', hn', ho'⟩ := h.above (ne_empty_of_isNode (h.isNode p n hn)) hq hpq
  rw [hn, Option.some.injEq] at hn'
  rw [← hn', ho] at ho'
  exact nomatch ho'

theorem insert (h : NodesSound alive ns) {n : Node} (hp : Path.isNode p = true)
    (hpar : ∀ q, Path.parent? p = some q → ∃ m, ns.get? q = some m ∧ m.owner = none)
    (hown : ∀ s, n.owner = some s → alive s)
    (hkeep : ∀ m, ns.get? p = some m → n.owner = m.owner) : NodesSound alive (ns.insert p n) where
  isNode q m hm := by
    rw [Table.get?_insert] at hm
    split at hm
    · next hq => exact hq ▸ hp
    · exact h.isNode q m hm
  parent q m r hm hr := by
    have hold : ∃ m', ns.get? r = some m' ∧ m'.owner = none := by
      rw [Table.get?_insert] at hm
      split at hm
      · next hq => exact hpar r (hq ▸ hr)
      · exact h.parent q m r hm hr
    obtain ⟨m', hm', ho⟩ := hold
    rw [Table.get?_insert]
    split
    · next hrp =>
      rw [hrp] at hm'
      exact ⟨n, rfl, (hkeep m' hm').trans ho⟩
    · exact ⟨m', hm', ho⟩
  owner q m s hm ho := by
    rw [Table.get?_insert] at hm
    split at hm
    · cases hm
      exact hown s ho
    · exact h.owner q m s hm ho

theorem erase (h : NodesSound alive ns)
    (hc : ∀ q m, ns.get? q = some m → Path.startsWith q (Path.below p) = false) :
    NodesSound alive (ns.erase p) where
  isNode q m hm := by
    rw [Table.get?_erase] at hm
    split at hm
    · exact nomatch hm
    · exact h.isNode q m hm
  parent q m r hm hr := by
    rw [Table.get?_erase] at hm
    split at hm
    · exact nomatch hm
    · obtain ⟨m', hm', ho⟩ := h.parent q m r hm hr
      refine ⟨m', ?_, ho⟩
      rw [Table.get?_erase, if_neg, hm']
      rintro rfl
      have := Path.startsWith_below_of_parent? hr
      rw [hc q m hm] at this
      exact nomatch this
  owner q m s hm ho := by
    rw [Table.get?_erase] at hm
    split at hm
    · exact nomatch hm
    · exact h.owner q m s hm ho

end NodesSound

/-! ### Watches -/

namespace WatchesSound

variable {wt : Table (List Watch)}

theorem mono (h : WatchesSound alive wt)
    (hs : ∀ p ws, wt.get? p = some ws → ∀ w ∈ ws, alive' w.session) : WatchesSound alive' wt :=
  ⟨h.ne_nil, h.nodup, hs⟩

theorem insert (h : WatchesSound alive wt) {p : String} {ws : List Watch} (hne : ws ≠ [])
    (hnd : (ws.map (·.listener)).Nodup) (hs : ∀ w ∈ ws, alive w.session) :
    WatchesSound alive (wt.insert p ws) := by
  have key : ∀ q vs, (wt.insert p ws).get? q = some vs → vs = ws ∨ wt.get? q = some vs := by
    intro q vs hq
    rw [Table.get?_insert] at hq
    split at hq
    · exact .inl (Option.some.inj hq).symm
    · exact .inr hq
  refine ⟨fun q vs hq => ?_, fun q vs hq => ?_, fun q vs hq => ?_⟩
  · rcases key q vs hq with rfl | hq
    · exact hne
    · exact h.ne_nil q vs hq
  · rcases key q vs hq with rfl | hq
    · exact hnd
    · exact h.nodup q vs hq
  · rcases key q vs hq with rfl | hq
    · exact hs
    · exact h.session q vs hq

theorem erase (h : WatchesSound alive wt) (p : String) : WatchesSound alive (wt.erase p) := by
  have key : ∀ q vs, (wt.erase p).get? q = some vs → wt.get? q = some vs := by
    intro q vs hq
    rw [Table.get?_erase] at hq
    split at hq
    · exact nomatch hq
    · exact hq
  exact ⟨fun q vs hq => h.ne_nil q vs (key q vs hq), fun q vs hq => h.nodup q vs (key q vs hq),
    fun q vs hq => h.session q vs (key q vs hq)⟩

end WatchesSound

/-! ### Operations -/

variable {t t' : Tree} {p : String} {s : SessionId} {data : Bytes} {mode : Mode} {l : Listener}
  {ds : List Delivery}

theorem get?_eq_none_of_contains (h : t.contains p = false) : t.nodes.get? p = none := by
  simp only [contains, Table.contains, Bool.or_eq_false_iff, Option.isSome_eq_false_iff,
    Option.isNone_iff_eq_none] at h
  exact h.2

theorem Sound.create (h : t.Sound alive) (hs : alive s)
    (hc : t.create s p data mode = .ok (t', ds)) : t'.Sound alive := by
  obtain ⟨hp, hnew, hpar, rfl, rfl⟩ := create_eq_ok_iff.1 hc
  refine ⟨h.nodes.insert hp (checkParent_eq_ok_iff.1 hpar) (fun s' ho => ?_) (fun m hm => ?_),
    h.watches⟩
  · cases mode with
    | persistent => exact nomatch ho
    | ephemeral => cases ho; exact hs
  · rw [get?_eq_none_of_contains hnew] at hm
    exact nomatch hm

theorem Sound.delete (h : t.Sound alive) (hd : t.delete p = .ok (t', ds)) : t'.Sound alive := by
  obtain ⟨_, _, hc, rfl, rfl⟩ := delete_eq_ok_iff.1 hd
  refine ⟨h.nodes.erase fun q m hq => Bool.eq_false_iff.2 fun hpq => ?_, h.watches⟩
  rw [hasChildren_iff.2 ⟨q, m, hq, hpq⟩] at hc
  exact nomatch hc

theorem Sound.write (h : t.Sound alive) (hw : t.write p data = .ok (t', ds)) :
    t'.Sound alive := by
  obtain ⟨n, hn, rfl, rfl⟩ := write_eq_ok_iff.1 hw
  refine ⟨h.nodes.insert (h.nodes.isNode p n hn) (fun q => h.nodes.parent p n q hn)
    (fun s' => h.nodes.owner p n s' hn) (fun m hm => ?_), h.watches⟩
  rw [hn] at hm
  cases hm
  rfl

theorem watchesAt_of_get? {ws : List Watch} (h : t.watches.get? p = some ws) :
    t.watchesAt p = ws := by
  simp [watchesAt, Table.getD, h]

theorem Sound.watchesAt (h : t.Sound alive) (p : String) :
    ((t.watchesAt p).map (·.listener)).Nodup ∧ ∀ w ∈ t.watchesAt p, alive w.session := by
  cases hp : t.watches.get? p with
  | none => simp [Tree.watchesAt, Table.getD, hp]
  | some ws =>
    rw [watchesAt_of_get? hp]
    exact ⟨h.watches.nodup p ws hp, h.watches.session p ws hp⟩

theorem Sound.watch (h : t.Sound alive) (hs : alive s) : (t.watch s p l).Sound alive := by
  unfold Tree.watch
  by_cases hl : (t.watchesAt p).any (·.listener == l)
  · rw [if_pos hl]
    exact h
  · rw [if_neg hl]
    obtain ⟨hnd, hal⟩ := h.watchesAt p
    refine ⟨h.nodes, h.watches.insert (by simp) ?_ fun w hw => ?_⟩
    · rw [List.map_append, List.nodup_append]
      refine ⟨hnd, by simp, fun a ha b hb hab => hl ?_⟩
      obtain ⟨w, hw, rfl⟩ := List.mem_map.1 ha
      obtain rfl : b = l := by simpa using hb
      exact List.any_eq_true.2 ⟨w, hw, by simp [hab]⟩
    · rcases List.mem_append.1 hw with hw | hw
      · exact hal w hw
      · obtain rfl := List.mem_singleton.1 hw
        exact hs

theorem Sound.unwatch (h : t.Sound alive) : (t.unwatch p l).Sound alive := by
  unfold Tree.unwatch
  cases hp : t.watches.get? p with
  | none => exact h
  | some ws =>
    refine ⟨h.nodes, ?_⟩
    dsimp only
    by_cases he : (ws.filter (·.listener != l)).isEmpty
    · rw [if_pos he]
      exact h.watches.erase p
    · rw [if_neg he]
      refine h.watches.insert (fun hn => he (List.isEmpty_iff.2 hn)) ?_ fun w hw => ?_
      · exact (h.watches.nodup p ws hp).sublist (List.filter_sublist.map _)
      · exact h.watches.session p ws hp w (List.mem_filter.1 hw).1

/-! ### The end of a session -/

theorem get?_dropWatches {ws : List Watch} (h : (t.dropWatches s).watches.get? p = some ws) :
    ws ≠ [] ∧ ∃ vs, t.watches.get? p = some vs ∧ ws = vs.filter (·.session != s) := by
  unfold dropWatches at h
  rw [Table.get?_filterMap, Option.bind_eq_some_iff] at h
  obtain ⟨vs, hvs, hw⟩ := h
  by_cases he : (vs.filter (·.session != s)).isEmpty
  · simp [he] at hw
  · simp only [he] at hw
    cases hw
    exact ⟨fun hn => he (List.isEmpty_iff.2 hn), vs, hvs, rfl⟩

theorem Sound.dropWatches (h : t.Sound alive) :
    WatchesSound (fun x => alive x ∧ x ≠ s) (t.dropWatches s).watches := by
  refine ⟨fun q ws hq => (get?_dropWatches hq).1, fun q ws hq => ?_, fun q ws hq w hw => ?_⟩
  · obtain ⟨_, vs, hvs, rfl⟩ := get?_dropWatches hq
    exact (h.watches.nodup q vs hvs).sublist (List.filter_sublist.map _)
  · obtain ⟨_, vs, hvs, rfl⟩ := get?_dropWatches hq
    obtain ⟨hw, hne⟩ := List.mem_filter.1 hw
    exact ⟨h.watches.session q vs hvs w hw, by simpa using hne⟩

theorem delete_of_owned (h : NodesSound alive t.nodes) {n : Node} (hn : t.nodes.get? p = some n)
    (ho : n.owner = some s) : t.delete p = .ok ({ t with
      nodes := t.nodes.erase p, history := t.history ++ [.deleted p] },
      t.deliveries p (.deleted p)) := by
  refine delete_eq_ok_iff.2 ⟨h.isNode p n hn, by simp [Table.contains, hn], ?_, rfl, rfl⟩
  rw [Bool.eq_false_iff]
  intro hc
  obtain ⟨q, m, hq, hpq⟩ := hasChildren_iff.1 hc
  rw [h.no_child hn ho hq] at hpq
  exact Bool.false_ne_true hpq

theorem get?_filter_not_contains (ns : Table Node) (ps : List String) (q : String) :
    (ns.filter fun q _ => !ps.contains q).get? q = if q ∈ ps then none else ns.get? q := by
  rw [Table.get?_filter]
  cases ns.get? q with
  | none => simp
  | some n => by_cases hq : q ∈ ps <;> simp [hq]

theorem filter_erase (ns : Table Node) (p : String) (ps : List String) :
    (ns.erase p).filter (fun q _ => !ps.contains q) =
      ns.filter fun q _ => !(p :: ps).contains q := by
  refine Table.ext_get? fun q => ?_
  rw [get?_filter_not_contains, get?_filter_not_contains, Table.get?_erase]
  by_cases hq : q = p <;> simp [hq]

/-- **Owned nodes are deleted one and all**, in the order of the list, and nothing else is. -/
theorem deleteAll_eq_of_owned : ∀ (ps : List String) {t : Tree}, NodesSound alive t.nodes →
    ps.Nodup → (∀ p ∈ ps, ∃ n, t.nodes.get? p = some n ∧ n.owner = some s) →
    t.deleteAll ps = ({ t with
      nodes := t.nodes.filter fun q _ => !ps.contains q
      history := t.history ++ ps.map .deleted },
      ps.flatMap fun p => t.deliveries p (.deleted p)) := by
  intro ps
  induction ps with
  | nil =>
    intro t _ _ _
    have hall : (t.nodes.filter fun q _ => !([] : List String).contains q) = t.nodes :=
      Table.ext_get? (get?_filter_not_contains t.nodes [])
    rw [hall, List.map_nil, List.append_nil]
    rfl
  | cons p ps ih =>
    intro t h hnd hown
    obtain ⟨hp, hnd⟩ := List.nodup_cons.1 hnd
    obtain ⟨n, hn, ho⟩ := hown p List.mem_cons_self
    have hrest : ∀ q ∈ ps, ∃ m, (t.nodes.erase p).get? q = some m ∧ m.owner = some s := by
      intro q hq
      obtain ⟨m, hm, hm'⟩ := hown q (List.mem_cons_of_mem _ hq)
      refine ⟨m, ?_, hm'⟩
      rw [Table.get?_erase_of_ne, hm]
      rintro rfl
      exact hp hq
    have herase := h.erase fun q m hq => h.no_child hn ho hq
    have hps := ih (t := { t with
      nodes := t.nodes.erase p, history := t.history ++ [.deleted p] }) herase hnd hrest
    unfold deleteAll
    rw [delete_of_owned h hn ho]
    dsimp only
    rw [hps, filter_erase, List.append_assoc]
    rfl

theorem deleteAll_of_owned (ps : List String) {t : Tree} (h : NodesSound alive t.nodes)
    (hnd : ps.Nodup) (hown : ∀ p ∈ ps, ∃ n, t.nodes.get? p = some n ∧ n.owner = some s) :
    NodesSound alive (t.deleteAll ps).1.nodes ∧ (t.deleteAll ps).1.watches = t.watches ∧
      ∀ q, (t.deleteAll ps).1.nodes.get? q = if q ∈ ps then none else t.nodes.get? q := by
  rw [deleteAll_eq_of_owned ps h hnd hown]
  have hget := get?_filter_not_contains t.nodes ps
  have hold : ∀ {q : String} {m : Node},
      (t.nodes.filter fun q _ => !ps.contains q).get? q = some m →
        q ∉ ps ∧ t.nodes.get? q = some m := by
    intro q m hm
    rw [hget] at hm
    split at hm
    · exact nomatch hm
    · next hq => exact ⟨hq, hm⟩
  refine ⟨⟨fun q m hm => h.isNode q m (hold hm).2, fun q m r hm hr => ?_,
    fun q m x hm => h.owner q m x (hold hm).2⟩, rfl, hget⟩
  obtain ⟨m', hm', ho⟩ := h.parent q m r (hold hm).2 hr
  refine ⟨m', ?_, ho⟩
  -- a parent has no owner, so it is none of those that go
  rw [hget, if_neg, hm']
  intro hmem
  obtain ⟨n, hn, hno⟩ := hown r hmem
  rw [hn, Option.some.injEq] at hm'
  rw [hm', ho] at hno
  exact nomatch hno

theorem mem_owned_iff : p ∈ t.owned s ↔ ∃ n, t.nodes.get? p = some n ∧ n.owner = some s := by
  unfold owned
  rw [List.mem_map]
  constructor
  · rintro ⟨e, he, rfl⟩
    obtain ⟨he, ho⟩ := List.mem_filter.1 he
    exact ⟨e.2, Table.mem_entries_iff.1 he, by simpa using ho⟩
  · rintro ⟨n, hn, ho⟩
    exact ⟨(p, n), List.mem_filter.2 ⟨Table.mem_entries_iff.2 hn, by simp [ho]⟩, rfl⟩

theorem nodup_owned : (t.owned s).Nodup :=
  t.nodes.nodup_keys.sublist (List.filter_sublist.map _)

/-- **A tree is sound without a session that ends.** -/
theorem Sound.expire (h : t.Sound alive) :
    (t.expire s).1.Sound (fun x => alive x ∧ x ≠ s) := by
  obtain ⟨hn, hw, hget⟩ := deleteAll_of_owned (t.owned s) (t := t.dropWatches s) h.nodes
    nodup_owned fun p hp => mem_owned_iff.1 hp
  refine ⟨hn.mono fun q n x hq ho => ?_, ?_⟩
  · refine ⟨hn.owner q n x hq ho, ?_⟩
    rintro rfl
    have hq' := (hget q).symm.trans hq
    by_cases hmem : q ∈ t.owned x
    · rw [if_pos hmem] at hq'
      exact nomatch hq'
    · rw [if_neg hmem] at hq'
      exact hmem (mem_owned_iff.2 ⟨n, hq', ho⟩)
  · show WatchesSound _ ((t.dropWatches s).deleteAll (t.owned s)).1.watches
    rw [hw]
    exact h.dropWatches

end Discovery.Tree
