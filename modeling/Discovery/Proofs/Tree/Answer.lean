import Discovery.Proofs.Tree.Operation
import Discovery.Tree.Server

/-!
# What a request changes

* `watches_answer`: a request that is not about watches leaves them alone.
* `changed_answer`, `changed_close`: a node gets data, of which its watches are told, or at most
  some nodes go.
* `watchesAt_close`: when a session ends, its watches go and the others stay.
* `closed_answer`: no request closes a session.
* `answer_of_failed`: a request that fails does nothing.
* `answer_create`, `answer_delete`: what is answered where nothing stands against a change but that
  it is made already.
-/

namespace Discovery.Tree

def Request.listener? : Request → Option Listener
  | .watch _ l | .unwatch _ l => some l
  | _ => none

variable {t t' : Tree} {p : String} {s : SessionId} {data : Bytes} {mode : Mode}
  {ds : List Delivery}

theorem watches_create (h : t.create s p data mode = .ok (t', ds)) : t'.watches = t.watches := by
  obtain ⟨_, _, _, rfl, _⟩ := create_eq_ok_iff.1 h
  rfl

theorem watches_delete (h : t.delete p = .ok (t', ds)) : t'.watches = t.watches := by
  obtain ⟨_, _, _, rfl, _⟩ := delete_eq_ok_iff.1 h
  rfl

theorem watches_write (h : t.write p data = .ok (t', ds)) : t'.watches = t.watches := by
  obtain ⟨_, _, rfl, _⟩ := write_eq_ok_iff.1 h
  rfl

theorem watches_deleteAll : ∀ (ps : List String) (t : Tree),
    (t.deleteAll ps).1.watches = t.watches := by
  intro ps
  induction ps with
  | nil => intro t; rfl
  | cons p ps ih =>
    intro t
    unfold deleteAll
    cases hd : t.delete p with
    | error e => exact ih t
    | ok x =>
      show (x.1.deleteAll ps).1.watches = t.watches
      rw [ih x.1, watches_delete hd]

theorem watchesAt_expire (t : Tree) (s : SessionId) (p : String) :
    (t.expire s).1.watchesAt p = (t.watchesAt p).filter (·.session != s) := by
  rw [← watchesAt_dropWatches]
  unfold watchesAt expire
  rw [watches_deleteAll]

/-! ### What becomes of the data -/

/-- What a change of the tree comes to, for the nodes and for the calls of listeners. -/
inductive Changed (t t' : Tree) (ds : List Delivery) : Prop where
  /-- A node gets data, and its watches are told of it. -/
  | gained (p : String) (data : Bytes) (here : t'.data? p = some data)
      (other : ∀ q, q ≠ p → t'.data? q = t.data? q) (owed : ds = t.deliveries p (.changed p data))
  /-- Nodes may have gone, and nobody is told of new data. -/
  | lost (less : ∀ q, t'.data? q = t.data? q ∨ t'.data? q = none)
      (owed : ∀ d ∈ ds, ∃ p, d.event = .deleted p)

theorem changed_refl (t : Tree) : Changed t t [] :=
  .lost (fun _ => .inl rfl) fun _ hd => nomatch hd

theorem nodes_watch (t : Tree) (s : SessionId) (p : String) (l : Listener) :
    (t.watch s p l).nodes = t.nodes := by
  unfold watch
  dsimp only
  split <;> rfl

theorem nodes_unwatch (t : Tree) (p : String) (l : Listener) : (t.unwatch p l).nodes = t.nodes := by
  unfold unwatch
  split <;> rfl

theorem changed_insert {n : Node} {ws : Table (List Watch)} {history : List Change} :
    Changed t ⟨t.nodes.insert p n, ws, history⟩ (t.deliveries p (.changed p n.data)) := by
  refine .gained p n.data ?_ (fun q hq => ?_) rfl
  · simp [data?]
  · simp [data?, Table.get?_insert_of_ne _ _ hq]

theorem changed_create (h : t.create s p data mode = .ok (t', ds)) : Changed t t' ds := by
  obtain ⟨_, _, _, rfl, rfl⟩ := create_eq_ok_iff.1 h
  exact changed_insert (n := ⟨data, _⟩)

theorem changed_write (h : t.write p data = .ok (t', ds)) : Changed t t' ds := by
  obtain ⟨n, _, rfl, rfl⟩ := write_eq_ok_iff.1 h
  exact changed_insert (n := { n with data })

theorem lost_delete (h : t.delete p = .ok (t', ds)) :
    (∀ q, t'.data? q = t.data? q ∨ t'.data? q = none) ∧ ∀ d ∈ ds, ∃ p, d.event = .deleted p := by
  obtain ⟨_, _, _, rfl, rfl⟩ := delete_eq_ok_iff.1 h
  refine ⟨fun q => ?_, fun d hd => ?_⟩
  · by_cases hq : q = p
    · subst hq
      exact .inr (by simp [data?])
    · exact .inl (by simp [data?, Table.get?_erase_of_ne _ hq])
  · obtain ⟨w, _, rfl⟩ := List.mem_map.1 hd
    exact ⟨p, rfl⟩

theorem lost_deleteAll : ∀ (ps : List String) (t : Tree),
    (∀ q, (t.deleteAll ps).1.data? q = t.data? q ∨ (t.deleteAll ps).1.data? q = none) ∧
      ∀ d ∈ (t.deleteAll ps).2, ∃ p, d.event = .deleted p := by
  intro ps
  induction ps with
  | nil => intro t; exact ⟨fun _ => .inl rfl, fun _ hd => nomatch hd⟩
  | cons p ps ih =>
    intro t
    unfold deleteAll
    cases hd : t.delete p with
    | error e => exact ih t
    | ok x =>
      obtain ⟨hdata, howed⟩ := lost_delete hd
      obtain ⟨hdata', howed'⟩ := ih x.1
      refine ⟨fun q => ?_, fun d hd => ?_⟩
      · rcases hdata' q with hq | hq
        · exact (hdata q).imp hq.trans hq.trans
        · exact .inr hq
      · exact (List.mem_append.1 hd).elim (howed d) (howed' d)

namespace Server

variable {v : Server} {q : Request}

theorem changed_commit {r : Except Failure (Tree × List Delivery)}
    (h : ∀ t ds, r = .ok (t, ds) → Changed v.tree t ds) :
    Changed v.tree (v.commit r).1.tree (v.commit r).2.2 := by
  cases r with
  | error e => exact changed_refl v.tree
  | ok x => exact h x.1 x.2 rfl

theorem changed_serverWrite (v : Server) (p : String) (data : Bytes) :
    Changed v.tree (v.write p data).1.tree (v.write p data).2.2 :=
  changed_commit fun _ _ h => changed_write h

/-- **A request gives a node data and has its watches told, or at most takes nodes away.** -/
theorem changed_answer (v : Server) (s : SessionId) (q : Request) :
    Changed v.tree (v.answer s q).1.tree (v.answer s q).2.2 := by
  have hsame : ∀ t : Tree, t.nodes = v.tree.nodes → Changed v.tree t [] := by
    intro t ht
    exact .lost (fun q => .inl (by unfold data?; rw [ht])) fun _ hd => nomatch hd
  unfold answer
  split
  · exact changed_refl v.tree
  · cases q with
    | check p => exact changed_refl v.tree
    | create p data mode => exact changed_commit fun t ds h => changed_create h
    | delete p =>
      refine changed_commit fun t ds h => ?_
      obtain ⟨hdata, howed⟩ := lost_delete h
      exact .lost hdata howed
    | read p => exact changed_refl v.tree
    | write p data => exact changed_commit fun t ds h => changed_write h
    | watch p l => exact hsame _ (nodes_watch v.tree s p l)
    | unwatch p l => exact hsame _ (nodes_unwatch v.tree p l)

theorem changed_close (v : Server) (s : SessionId) :
    Changed v.tree (v.close s).1.tree (v.close s).2 := by
  unfold close
  split
  · exact changed_refl v.tree
  · obtain ⟨hdata, howed⟩ := lost_deleteAll (v.tree.owned s) (v.tree.dropWatches s)
    exact .lost hdata howed

theorem commit_closed (v : Server) (r : Except Failure (Tree × List Delivery)) :
    (v.commit r).1.closed = v.closed := by
  cases r <;> rfl

/-- **No request closes a session.** -/
theorem closed_answer (v : Server) (s : SessionId) (q : Request) :
    (v.answer s q).1.closed = v.closed := by
  unfold answer
  split
  · rfl
  · cases q <;> first | rfl | exact commit_closed _ _

theorem isClosed_answer (v : Server) (s : SessionId) (q : Request) (x : SessionId) :
    (v.answer s q).1.isClosed x = v.isClosed x := by
  unfold isClosed
  rw [closed_answer]

theorem isClosed_write (v : Server) (p : String) (data : Bytes) (x : SessionId) :
    (v.write p data).1.isClosed x = v.isClosed x := by
  unfold isClosed write
  rw [commit_closed]

theorem answer_of_open (h : v.isClosed s = false) (q : Request) :
    v.answer s q = v.perform s q := by
  unfold answer
  rw [h]
  rfl

theorem commit_watches {r : Except Failure (Tree × List Delivery)}
    (h : ∀ t ds, r = .ok (t, ds) → t.watches = v.tree.watches) :
    (v.commit r).1.tree.watches = v.tree.watches := by
  cases r with
  | error e => rfl
  | ok x => exact h x.1 x.2 rfl

/-- **A request that is not about watches leaves them alone.** -/
theorem watches_answer (hq : q.listener? = none) :
    (v.answer s q).1.tree.watches = v.tree.watches := by
  unfold answer
  split
  · rfl
  · cases q with
    | check p => rfl
    | create p data mode => exact commit_watches fun t ds h => watches_create h
    | delete p => exact commit_watches fun t ds h => watches_delete h
    | read p => rfl
    | write p data => exact commit_watches fun t ds h => Tree.watches_write h
    | watch p l => exact nomatch hq
    | unwatch p l => exact nomatch hq

theorem watches_serverWrite (v : Server) (p : String) (data : Bytes) :
    (v.write p data).1.tree.watches = v.tree.watches :=
  commit_watches fun _ _ h => Tree.watches_write h

/-! ### What is answered -/

theorem commit_of_failed {r : Except Failure (Tree × List Delivery)} {why : Failure}
    (h : (v.commit r).2.1 = .failed why) : v.commit r = (v, .failed why, []) := by
  cases r with
  | error e =>
    cases h
    rfl
  | ok x => exact nomatch h

/-- **A request that fails does nothing.** -/
theorem answer_of_failed {why : Failure} (h : (v.answer s q).2.1 = .failed why) :
    v.answer s q = (v, .failed why, []) := by
  unfold answer at h ⊢
  split
  · next hc =>
    rw [if_pos hc] at h
    cases h
    rfl
  · next hc =>
    rw [if_neg hc] at h
    cases q with
    | create p data mode => exact commit_of_failed h
    | delete p => exact commit_of_failed h
    | write p data => exact commit_of_failed h
    | _ => exact nomatch h

theorem contains_of_isNode (hp : Path.isNode p = true) :
    v.tree.contains p = v.tree.nodes.contains p := by
  have hne : p ≠ "/" := by
    rintro rfl
    exact nomatch hp
  simp [Tree.contains, hne]

/-- Where the parent is there and stays, **a node is created, or there is one already**. -/
theorem answer_create (h : v.isClosed s = false) (hp : Path.isNode p = true)
    (hpar : v.tree.checkParent p = .ok ()) :
    (v.tree.nodes.contains p = true ∧
        v.answer s (.create p data mode) = (v, .failed (.nodeExists p), [])) ∨
      (v.tree.nodes.get? p = none ∧ ∃ t ds,
        v.answer s (.create p data mode) = ({ v with tree := t }, .done, ds) ∧
          t.nodes = v.tree.nodes.insert p ⟨data, mode.owner s⟩) := by
  rw [answer_of_open h]
  have hroot := contains_of_isNode (v := v) hp
  cases hc : v.tree.nodes.contains p with
  | true =>
    refine .inl ⟨rfl, ?_⟩
    have he : v.tree.create s p data mode = .error (.nodeExists p) := by
      simp [create, hp, hroot, hc, throw_bind]
    simp [perform, he, commit]
  | false =>
    obtain ⟨⟨t, ds⟩, ht⟩ : ∃ x, v.tree.create s p data mode = .ok x :=
      ⟨_, create_eq_ok_iff.2 ⟨hp, hroot.trans hc, hpar, rfl, rfl⟩⟩
    obtain ⟨_, _, _, hnodes, _⟩ := create_eq_ok_iff.1 ht
    refine .inr ⟨by simpa [Table.contains] using hc, t, ds, ?_, by rw [hnodes]⟩
    rw [perform, ht]
    rfl

/-- Where nothing lies below it, **a node is deleted, or there is none**. -/
theorem answer_delete (h : v.isClosed s = false) (hp : Path.isNode p = true)
    (hc : v.tree.hasChildren p = false) :
    (v.tree.nodes.get? p = none ∧ v.answer s (.delete p) = (v, .failed (.noNode p), [])) ∨
      ∃ t ds, v.answer s (.delete p) = ({ v with tree := t }, .done, ds) ∧
        t.nodes = v.tree.nodes.erase p := by
  rw [answer_of_open h]
  cases hn : v.tree.nodes.contains p with
  | false =>
    refine .inl ⟨by simpa [Table.contains] using hn, ?_⟩
    have he : v.tree.delete p = .error (.noNode p) := by
      simp [delete, hp, hn, throw_bind]
    simp [perform, he, commit]
  | true =>
    obtain ⟨⟨t, ds⟩, ht⟩ : ∃ x, v.tree.delete p = .ok x :=
      ⟨_, delete_eq_ok_iff.2 ⟨hp, hn, hc, rfl, rfl⟩⟩
    obtain ⟨_, _, _, hnodes, _⟩ := delete_eq_ok_iff.1 ht
    refine .inr ⟨t, ds, ?_, by rw [hnodes]⟩
    rw [perform, ht]
    rfl

/-! ### Whom a request owes a call -/

theorem owed_commit {r : Except Failure (Tree × List Delivery)} {owed : List Delivery}
    (h : ∀ t ds, r = .ok (t, ds) → ds = owed) (hdone : (v.commit r).2.1 = .done) :
    (v.commit r).2.2 = owed := by
  cases r with
  | error e => exact nomatch hdone
  | ok x => exact h x.1 x.2 rfl

theorem done_or_failed_create (v : Server) (s : SessionId) (p : String) (data : Bytes)
    (mode : Mode) : (v.answer s (.create p data mode)).2.1 = .done ∨
      ∃ why, (v.answer s (.create p data mode)).2.1 = .failed why := by
  unfold answer
  split
  · exact .inr ⟨_, rfl⟩
  · simp only [perform]
    cases v.tree.create s p data mode with
    | ok => exact .inl rfl
    | error why => exact .inr ⟨why, rfl⟩

theorem owed_create (hdone : (v.answer s (.create p data mode)).2.1 = .done) :
    (v.answer s (.create p data mode)).2.2 = v.tree.deliveries p (.changed p data) := by
  unfold answer at hdone ⊢
  split at hdone
  · exact nomatch hdone
  · next hopen =>
    rw [if_neg hopen]
    exact owed_commit (fun t ds h => (create_eq_ok_iff.1 h).2.2.2.2) hdone

theorem owed_serverWrite (hdone : (v.write p data).2.1 = .done) :
    (v.write p data).2.2 = v.tree.deliveries p (.changed p data) := by
  refine owed_commit (fun t ds h => ?_) hdone
  obtain ⟨_, _, _, hds⟩ := write_eq_ok_iff.1 h
  exact hds

theorem owed_write (hdone : (v.answer s (.write p data)).2.1 = .done) :
    (v.answer s (.write p data)).2.2 = v.tree.deliveries p (.changed p data) := by
  unfold answer at hdone ⊢
  split at hdone
  · exact nomatch hdone
  · next hopen =>
    rw [if_neg hopen]
    exact owed_serverWrite hdone

theorem owed_delete : ∀ d ∈ (v.answer s (.delete p)).2.2, ∃ q, d.event = .deleted q := by
  unfold answer
  split
  · exact fun _ hd => nomatch hd
  · show ∀ d ∈ (v.commit (v.tree.delete p)).2.2, _
    cases hr : v.tree.delete p with
    | error e => exact fun _ hd => nomatch hd
    | ok x => exact (lost_delete hr).2

theorem watchesAt_close (v : Server) (s : SessionId) (p : String) :
    (v.close s).1.tree.watchesAt p =
      if v.isClosed s then v.tree.watchesAt p
      else (v.tree.watchesAt p).filter (·.session != s) := by
  unfold close
  split
  · rfl
  · exact watchesAt_expire v.tree s p

theorem isClosed_close {x : SessionId} (h : x ≠ s) :
    (v.close s).1.isClosed x = v.isClosed x := by
  unfold close
  split
  · rfl
  · simp [isClosed, h]

end Server

end Discovery.Tree
