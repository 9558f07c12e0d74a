import Discovery.Proofs.Since
import Discovery.Proofs.Tree.Ledger

/-!
# Who watches a path

A watch belongs to the session through which the listener was put on the path.  It goes when that
session ends, and when the listener is taken off the path, through whatever session.  A second
session that puts the same listener on the same path leaves the watch to the first one.

* `PutsUp`, `TakesOff`: the acts by which a watch comes and goes.
* `mem_watchesAt_act`: no other act changes who watches.
* `Kept`: a watch was put up, and has not been taken off since.
* `told_of_runs`: who is told of what an act does to a path is whoever has a watch there.
-/

namespace Discovery.Tree.Server

variable {v : Server} {a : Act} {w : Watch} {s : SessionId} {p q : String} {l : Listener}

/-- **An open session puts a listener on a path**, on which it is not yet. -/
def PutsUp (v : Server) (w : Watch) (p : String) (a : Act) : Prop :=
  a = .request w.session (.watch p w.listener) ∧ v.isClosed w.session = false ∧
    ∀ x ∈ v.tree.watchesAt p, x.listener ≠ w.listener

/-- **A watch goes**: its session ends, or some open session takes the listener off the path. -/
def TakesOff (v : Server) (w : Watch) (p : String) (a : Act) : Prop :=
  ∃ s, v.isClosed s = false ∧
    (a = .close s ∧ s = w.session ∨ a = .request s (.unwatch p w.listener))

/-! ### One act -/

theorem watchesAt_congr {t t' : Tree} (h : t'.watches = t.watches) (p : String) :
    t'.watchesAt p = t.watchesAt p := by
  unfold watchesAt
  rw [h]

theorem mem_watchesAt_of_quiet (hat : (v.act a).1.tree.watchesAt p = v.tree.watchesAt p)
    (hup : ¬ v.PutsUp w p a) (hoff : ¬ v.TakesOff w p a) : w ∈ (v.act a).1.tree.watchesAt p ↔
      v.PutsUp w p a ∨ w ∈ v.tree.watchesAt p ∧ ¬ v.TakesOff w p a := by
  rw [hat]
  simp [hup, hoff]

theorem mem_watchesAt_watch (hopen : v.isClosed s = false) :
    w ∈ (v.act (.request s (.watch q l))).1.tree.watchesAt p ↔
      v.PutsUp w p (.request s (.watch q l)) ∨ w ∈ v.tree.watchesAt p := by
  have htree : (v.act (.request s (.watch q l))).1.tree = v.tree.watch s q l :=
    congrArg (·.1.tree) (answer_of_open hopen (.watch q l))
  have hany : (v.tree.watchesAt q).any (·.listener == l) = true ↔
      ∃ x ∈ v.tree.watchesAt q, x.listener = l := by
    simp
  have hup : v.PutsUp w p (.request s (.watch q l)) ↔
      p = q ∧ ¬ (v.tree.watchesAt q).any (·.listener == l) = true ∧ w = ⟨s, l⟩ := by
    rw [hany]
    constructor
    · rintro ⟨he, _, hnew⟩
      obtain ⟨rfl, hq⟩ := Act.request.inj he
      obtain ⟨rfl, rfl⟩ := Request.watch.inj hq
      exact ⟨rfl, fun ⟨x, hx, hl⟩ => hnew x hx hl, rfl⟩
    · rintro ⟨rfl, hnew, rfl⟩
      exact ⟨rfl, hopen, fun x hx hl => hnew ⟨x, hx, hl⟩⟩
  rw [htree, watchesAt_watch, hup]
  split
  · next h => simp [h.1, h.2, or_comm]
  · next h =>
    refine (or_iff_right ?_).symm
    rintro ⟨hp, hnew, _⟩
    exact h ⟨hp, hnew⟩

theorem mem_watchesAt_unwatch (hopen : v.isClosed s = false) :
    w ∈ (v.act (.request s (.unwatch q l))).1.tree.watchesAt p ↔
      w ∈ v.tree.watchesAt p ∧ ¬ v.TakesOff w p (.request s (.unwatch q l)) := by
  have htree : (v.act (.request s (.unwatch q l))).1.tree = v.tree.unwatch q l :=
    congrArg (·.1.tree) (answer_of_open hopen (.unwatch q l))
  have hoff : v.TakesOff w p (.request s (.unwatch q l)) ↔ p = q ∧ w.listener = l := by
    constructor
    · rintro ⟨x, _, ⟨he, _⟩ | he⟩
      · exact nomatch he
      · obtain ⟨_, hq⟩ := Act.request.inj he
        obtain ⟨rfl, rfl⟩ := Request.unwatch.inj hq
        exact ⟨rfl, rfl⟩
    · rintro ⟨rfl, rfl⟩
      exact ⟨s, hopen, .inr rfl⟩
  rw [htree, watchesAt_unwatch, hoff]
  by_cases hp : p = q <;> simp [hp]

theorem mem_watchesAt_close (v : Server) (s : SessionId) :
    w ∈ (v.close s).1.tree.watchesAt p ↔
      w ∈ v.tree.watchesAt p ∧ ¬ v.TakesOff w p (.close s) := by
  have hoff : v.TakesOff w p (.close s) ↔ v.isClosed s = false ∧ w.session = s := by
    constructor
    · rintro ⟨x, hx, ⟨he, hs⟩ | he⟩
      · obtain rfl := Act.close.inj he
        exact ⟨hx, hs.symm⟩
      · exact nomatch he
    · rintro ⟨hopen, rfl⟩
      exact ⟨w.session, hopen, .inl ⟨rfl, rfl⟩⟩
  rw [watchesAt_close, hoff]
  cases v.isClosed s <;> simp

/-- **Whose watches are on a path after an act.** -/
theorem mem_watchesAt_act (v : Server) (a : Act) : w ∈ (v.act a).1.tree.watchesAt p ↔
    v.PutsUp w p a ∨ w ∈ v.tree.watchesAt p ∧ ¬ v.TakesOff w p a := by
  cases a with
  | connect | clearHistory =>
    exact mem_watchesAt_of_quiet rfl (by rintro ⟨h, _⟩; cases h)
      (by rintro ⟨_, _, ⟨h, _⟩ | h⟩ <;> cases h)
  | write q data =>
    exact mem_watchesAt_of_quiet (watchesAt_congr (watches_serverWrite v q data) p)
      (by rintro ⟨h, _⟩; cases h) (by rintro ⟨_, _, ⟨h, _⟩ | h⟩ <;> cases h)
  | close s =>
    rw [← mem_watchesAt_close]
    refine (or_iff_right ?_).symm
    rintro ⟨h, _⟩
    cases h
  | request s r =>
    cases hc : v.isClosed s with
    | true =>
      have hsame : (v.act (.request s r)).1 = v := by simp [act, answer, hc]
      refine mem_watchesAt_of_quiet (by rw [hsame]) ?_ ?_
      · rintro ⟨h, hopen, _⟩
        cases h
        cases hc.symm.trans hopen
      · rintro ⟨x, hx, ⟨h, _⟩ | h⟩
        · cases h
        · cases h
          cases hc.symm.trans hx
    | false =>
      have hother : r.listener? = none → (w ∈ (v.act (.request s r)).1.tree.watchesAt p ↔
          v.PutsUp w p (.request s r) ∨
            w ∈ v.tree.watchesAt p ∧ ¬ v.TakesOff w p (.request s r)) := by
        intro hr
        refine mem_watchesAt_of_quiet (watchesAt_congr (watches_answer hr) p) ?_ ?_
        · rintro ⟨h, _⟩
          cases h
          cases hr
        · rintro ⟨x, hx, ⟨h, _⟩ | h⟩
          · cases h
          · cases h
            cases hr
      cases r with
      | watch q l =>
        rw [mem_watchesAt_watch hc]
        refine or_congr_right (and_iff_left ?_).symm
        rintro ⟨x, hx, ⟨h, _⟩ | h⟩ <;> cases h
      | unwatch q l =>
        rw [mem_watchesAt_unwatch hc]
        refine (or_iff_right ?_).symm
        rintro ⟨h, _⟩
        cases h
      | _ => exact hother rfl

namespace Ledger

variable {k : Ledger} {i : Nat}

/-! ### All acts -/

/-- **A watch is kept**: at some time it was put up, and it has not been taken off since. -/
def Kept (w : Watch) (p : String) : List (Server × Act) → Prop :=
  Since (fun _ x => x.1.PutsUp w p x.2) fun _ x => ¬ x.1.TakesOff w p x.2

/-- The watches on a path are those that are kept, now and whenever an act met the server. -/
theorem Runs.mem_watchesAt_iff (h : k.Runs) (w : Watch) (p : String) :
    (w ∈ k.server.tree.watchesAt p ↔ Kept w p k.acts) ∧
      ∀ i v a, k.acts[i]? = some (v, a) →
        (w ∈ v.tree.watchesAt p ↔ Kept w p (k.acts.take i)) := by
  induction h with
  | refl =>
    refine ⟨iff_of_false List.not_mem_nil not_since_nil, fun i v a hi => ?_⟩
    exact absurd hi.symm (Option.some_ne_none _)
  | @tail k k' _ hn ih =>
    obtain ⟨hnow, hmet⟩ := ih
    cases hn with
    | call owed => exact ⟨hnow, hmet⟩
    | act a =>
      refine ⟨?_, fun i v b hi => ?_⟩
      · show w ∈ (k.server.act a).1.tree.watchesAt p ↔ Since _ _ (k.acts ++ [(k.server, a)])
        rw [since_concat, mem_watchesAt_act, hnow]
        rfl
      · change (k.acts ++ [(k.server, a)])[i]? = _ at hi
        show _ ↔ Kept w p ((k.acts ++ [(k.server, a)]).take i)
        rcases Nat.lt_trichotomy i k.acts.length with hlt | rfl | hgt
        · rw [List.getElem?_append_left hlt] at hi
          rw [List.take_append_of_le_length (Nat.le_of_lt hlt)]
          exact hmet i v b hi
        · rw [List.getElem?_concat_length] at hi
          cases hi
          rw [List.take_left' rfl]
          exact hnow
        · rw [List.getElem?_eq_none (by simp; omega)] at hi
          cases hi

/-- A session that ends takes no part in the calls for the nodes that go with it. -/
theorem mem_watchesUnder_iff : l ∈ (v.watchesUnder p a).map (·.listener) ↔
    ∃ s, ⟨s, l⟩ ∈ v.tree.watchesAt p ∧ a ≠ .close s := by
  rw [List.mem_map]
  constructor
  · rintro ⟨⟨s, l⟩, hw, rfl⟩
    cases a with
    | close x =>
      obtain ⟨hw, hne⟩ := List.mem_filter.1 hw
      refine ⟨s, hw, fun he => bne_iff_ne.1 hne (Act.close.inj he).symm⟩
    | _ => exact ⟨s, hw, nofun⟩
  · rintro ⟨s, hw, hne⟩
    refine ⟨⟨s, l⟩, ?_, rfl⟩
    cases a with
    | close x =>
      refine List.mem_filter.2 ⟨hw, bne_iff_ne.2 ?_⟩
      rintro rfl
      exact hne rfl
    | _ => exact hw

theorem kept_of_watch (h : k.Runs) {b : SessionId}
    (hact : k.acts[i]? = some (v, .request b (.watch p l))) (hopen : v.isClosed b = false) :
    ∃ s, Kept ⟨s, l⟩ p (k.acts.take (i + 1)) ∧ (s = b ∨ Kept ⟨s, l⟩ p (k.acts.take i)) := by
  have htake : k.acts.take (i + 1) = k.acts.take i ++ [(v, .request b (.watch p l))] := by
    rw [List.take_add_one, hact]
    rfl
  rw [htake]
  by_cases hthere : ∃ x ∈ v.tree.watchesAt p, x.listener = l
  · obtain ⟨⟨s, l⟩, hx, rfl⟩ := hthere
    have hkept := ((h.mem_watchesAt_iff ⟨s, l⟩ p).2 i v _ hact).1 hx
    refine ⟨s, hkept.concat ?_, .inr hkept⟩
    rintro ⟨_, _, ⟨he, _⟩ | he⟩ <;> cases he
  · refine ⟨b, since_of_began ⟨rfl, hopen, fun x hx hl => hthere ⟨x, hx, hl⟩⟩, .inl rfl⟩

open Classical in
/-- **Who is told is whoever has a watch.**  However acts and calls follow each other: of what an
act does to a path a listener is told once, if some session keeps a watch of it on the path and does
not end by this act, and else not at all.  An open session that puts a listener on a path has its
watch kept from then on, until it ends or any session takes the listener off; but if the listener is
there already through another session, then it is the watch of that one, and goes when that one
ends. -/
theorem told_of_runs (h : k.Runs) (hend : k.owed = []) (p : String) (l : Listener) :
    (∀ i v a e, k.acts[i]? = some (v, a) → v.Does a e → e.path = p →
      k.made.count (i, ⟨l, e⟩) =
        if ∃ s, Kept ⟨s, l⟩ p (k.acts.take i) ∧ a ≠ .close s then 1 else 0) ∧
    ∀ i v b, k.acts[i]? = some (v, .request b (.watch p l)) → v.isClosed b = false →
      ∃ s, Kept ⟨s, l⟩ p (k.acts.take (i + 1)) ∧ (s = b ∨ Kept ⟨s, l⟩ p (k.acts.take i)) := by
  refine ⟨fun i v a e hact hdoes hp => ?_, fun i v b => kept_of_watch h⟩
  subst hp
  have hwatch : v.Owes a ⟨l, e⟩ ↔ ∃ s, Kept ⟨s, l⟩ e.path (k.acts.take i) ∧ a ≠ .close s := by
    refine (and_iff_right hdoes).trans (mem_watchesUnder_iff.trans (exists_congr fun s => ?_))
    rw [(h.mem_watchesAt_iff ⟨s, l⟩ e.path).2 i v a hact]
  have hline : k.line = k.made := by
    unfold line
    rw [hend, List.append_nil]
  have hcount := count_line h hact ⟨l, e⟩
  rw [hline, hwatch] at hcount
  split
  · next hkept => exact hcount.1 hkept
  · next hnone => exact hcount.2 hnone

/-- Two sessions put the same listener on a path, and a node is created there.  Then the first one
ends, and the node is written to. -/
def sharedWatch : Ledger :=
  let k := (blank.act .connect).act .connect
  let k := k.act (.request 1 (.watch "/a" (.named "l")))
  let k := k.act (.request 2 (.watch "/a" (.named "l")))
  let k := k.act (.request 2 (.create "/a" [1] .persistent))
  let k := k.call (4, ⟨.named "l", .changed "/a" [1]⟩)
  (k.act (.close 1)).act (.write "/a" [2])

theorem runs_sharedWatch : sharedWatch.Runs := by
  refine .tail (.tail (.tail (.tail (.tail (.tail (.tail (.tail .refl (.act _)) (.act _)) (.act _))
    (.act _)) (.act _)) (.call ?_)) (.act _)) (.act _)
  decide

open Classical in
theorem told_of_sharedWatch : sharedWatch.Runs ∧ sharedWatch.owed = [] ∧
    (∀ i v a e, sharedWatch.acts[i]? = some (v, a) → v.Does a e → e.path = "/a" →
      sharedWatch.made.count (i, ⟨.named "l", e⟩) =
        if ∃ s, Kept ⟨s, .named "l"⟩ "/a" (sharedWatch.acts.take i) ∧ a ≠ .close s then 1 else 0) ∧
    ∀ i v b, sharedWatch.acts[i]? = some (v, .request b (.watch "/a" (.named "l"))) →
      v.isClosed b = false → ∃ s, Kept ⟨s, .named "l"⟩ "/a" (sharedWatch.acts.take (i + 1)) ∧
        (s = b ∨ Kept ⟨s, .named "l"⟩ "/a" (sharedWatch.acts.take i)) := by
  have hend : sharedWatch.owed = [] := by decide
  exact ⟨runs_sharedWatch, hend, told_of_runs runs_sharedWatch hend "/a" (.named "l")⟩

/-- **The end of another session ends a watch.**  The second session has put the listener on the
path and is open, and has not taken it off; and nobody is told of the writing. -/
theorem untold_of_sharedWatch : sharedWatch.Runs ∧ sharedWatch.owed = [] ∧
    (∃ v, sharedWatch.acts[3]? = some (v, .request 2 (.watch "/a" (.named "l"))) ∧
      (v.answer 2 (.watch "/a" (.named "l"))).2.1 = .done) ∧
    (∀ x ∈ sharedWatch.acts.drop 4,
      x.2 ≠ .close 2 ∧ x.2 ≠ .request 2 (.unwatch "/a" (.named "l"))) ∧
    (∃ v, sharedWatch.acts[6]? = some (v, .write "/a" [2]) ∧
      v.Does (.write "/a" [2]) (.changed "/a" [2])) ∧
    ∀ l, sharedWatch.made.count (6, ⟨l, .changed "/a" [2]⟩) = 0 := by
  refine ⟨runs_sharedWatch, by decide, ⟨_, rfl, by decide⟩, by decide,
    ⟨_, rfl, .writtenByServer (by decide)⟩, fun l => ?_⟩
  have hmade : sharedWatch.made = [(4, ⟨.named "l", .changed "/a" [1]⟩)] := by decide
  rw [hmade]
  simp

end Ledger

end Discovery.Tree.Server
