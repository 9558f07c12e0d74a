import Discovery.Proofs.Tree.Closing
import Discovery.Proofs.Tree.Ledger

/-!
# The history tells the nodes

A tree writes down each change of its nodes.  Whoever reads the changes from the beginning can tell
from them alone which nodes there are and which of them go with a session: an `Outline` of the tree.
A change is taken up only if it makes sense after those before it.

* `Outline.redo`, `Outline.replay`: takes up one change, or a list of them.
* `logs_act`: what an act adds to the history turns the outline before it into the one after.
* `replays_of_runs`: so the whole history tells what nodes there are, however acts and calls of
  listeners follow each other.
-/

namespace Discovery.Tree

/-- What is known of the nodes of a tree: their paths, and whether each goes with a session. -/
abbrev Outline := Table Bool

namespace Outline

/-- A node may stand at the top or under a node that stays. -/
def admits (o : Outline) (p : String) : Bool :=
  match Path.parent? p with
  | none => true
  | some q => o.get? q == some false

def hasBelow (o : Outline) (p : String) : Bool :=
  o.keys.any (Path.startsWith · (Path.below p))

/-- Takes up a change, if there is room for a new node, or the node that it is about is there and
has nothing below it if it is to go. -/
def redo (o : Outline) : Change → Option Outline
  | .created p mode =>
    if Path.isNode p && !o.contains p && o.admits p then some (o.insert p (mode == .ephemeral))
    else none
  | .deleted p => if o.contains p && !o.hasBelow p then some (o.erase p) else none
  | .written p => if o.contains p then some o else none

/-- Takes up the changes of a list one after the other, if it can take up each of them. -/
def replay (o : Outline) (cs : List Change) : Option Outline :=
  cs.foldlM redo o

theorem replay_append (o : Outline) (cs ds : List Change) :
    o.replay (cs ++ ds) = (o.replay cs).bind fun o' => o'.replay ds :=
  List.foldlM_append

theorem replay_singleton (o : Outline) (c : Change) : o.replay [c] = o.redo c := by
  show (o.redo c).bind some = o.redo c
  exact Option.bind_fun_some _

end Outline

/-- The outline of a tree. -/
def outline (t : Tree) : Outline :=
  t.nodes.filterMap fun _ n => some n.isEphemeral

variable {t t' : Tree} {p : String} {s : SessionId} {data : Bytes} {mode : Mode}
  {ds : List Delivery}

theorem get?_outline (t : Tree) (p : String) : t.outline.get? p = t.isEphemeral? p := by
  unfold outline isEphemeral?
  rw [Table.get?_filterMap]
  cases t.nodes.get? p <;> rfl

theorem keys_outline (t : Tree) : t.outline.keys = t.paths := by
  show (t.nodes.entries.filterMap fun e => some (e.1, e.2.isEphemeral)).map (·.1) = _
  rw [List.filterMap_eq_map', List.map_map]
  rfl

theorem contains_outline (t : Tree) (p : String) : t.outline.contains p = t.nodes.contains p := by
  unfold Table.contains
  rw [get?_outline, isEphemeral?, Option.isSome_map]

theorem outline_of_nodes (h : t'.nodes = t.nodes) : t'.outline = t.outline := by
  unfold outline
  rw [h]

/-! ### Operations -/

theorem hasBelow_outline (t : Tree) (p : String) : t.outline.hasBelow p = t.hasChildren p := by
  rw [Bool.eq_iff_iff, hasChildren_iff, Outline.hasBelow, List.any_eq_true]
  refine exists_congr fun q => ?_
  rw [Table.mem_keys_iff, contains_outline, Table.contains, Option.isSome_iff_exists,
    exists_and_right]

theorem admits_outline (h : t.checkParent p = .ok ()) : t.outline.admits p = true := by
  unfold Outline.admits
  cases hq : Path.parent? p with
  | none => rfl
  | some q =>
    obtain ⟨n, hn, ho⟩ := checkParent_eq_ok_iff.1 h q hq
    simp [get?_outline, isEphemeral?, hn, isEphemeral_eq_false_iff.2 ho]

/-- The history of a tree goes on by changes that lead from the outline of one to that of the
other. -/
def Logs (t : Tree) (cs : List Change) (t' : Tree) : Prop :=
  t'.history = t.history ++ cs ∧ t.outline.replay cs = some t'.outline

theorem logs_refl (t : Tree) : t.Logs [] t :=
  ⟨(List.append_nil _).symm, rfl⟩

theorem logs_of_nodes (hn : t'.nodes = t.nodes) (hh : t'.history = t.history) : t.Logs [] t' :=
  ⟨by rw [hh, List.append_nil], by rw [outline_of_nodes hn]; rfl⟩

theorem Logs.trans {t'' : Tree} {cs ds : List Change} (h : t.Logs cs t') (h' : t'.Logs ds t'') :
    t.Logs (cs ++ ds) t'' := by
  refine ⟨by rw [h'.1, h.1, List.append_assoc], ?_⟩
  rw [Outline.replay_append, h.2]
  exact h'.2

/-- **A node that is created can be taken up.** -/
theorem logs_create (h : t.create s p data mode = .ok (t', ds)) : t.Logs [.created p mode] t' := by
  obtain ⟨hp, hnew, hpar, rfl, _⟩ := create_eq_ok_iff.1 h
  have habsent : t.nodes.contains p = false := by
    rw [Table.contains, get?_eq_none_of_contains hnew]
    rfl
  have hflag : (mode == .ephemeral) = (⟨data, mode.owner s⟩ : Node).isEphemeral := by
    cases mode <;> rfl
  refine ⟨rfl, ?_⟩
  rw [Outline.replay_singleton]
  simp only [Outline.redo, hp, contains_outline, habsent, admits_outline hpar, hflag,
    Bool.not_false, Bool.and_true, if_true, Option.some.injEq]
  refine Table.ext_get? fun q => ?_
  rw [Table.get?_insert, get?_outline, get?_outline, isEphemeral?, isEphemeral?, Table.get?_insert]
  split <;> rfl

/-- **A node that is deleted can be taken away.** -/
theorem logs_delete (h : t.delete p = .ok (t', ds)) : t.Logs [.deleted p] t' := by
  obtain ⟨_, hp, hc, rfl, _⟩ := delete_eq_ok_iff.1 h
  refine ⟨rfl, ?_⟩
  rw [Outline.replay_singleton]
  simp only [Outline.redo, contains_outline, hp, hasBelow_outline, hc, Bool.not_false,
    Bool.and_true, if_true, Option.some.injEq]
  refine Table.ext_get? fun q => ?_
  rw [Table.get?_erase, get?_outline, get?_outline, isEphemeral?, isEphemeral?, Table.get?_erase]
  split <;> rfl

theorem logs_write (h : t.write p data = .ok (t', ds)) : t.Logs [.written p] t' := by
  obtain ⟨n, hn, rfl, _⟩ := write_eq_ok_iff.1 h
  have hp : t.nodes.contains p = true := by simp [Table.contains, hn]
  refine ⟨rfl, ?_⟩
  rw [Outline.replay_singleton]
  simp only [Outline.redo, contains_outline, hp, if_true, Option.some.injEq]
  refine Table.ext_get? fun q => ?_
  rw [get?_outline, get?_outline, isEphemeral?, isEphemeral?, Table.get?_insert]
  split
  · next hq =>
    rw [hq, hn]
    rfl
  · rfl

theorem exists_logs_deleteAll : ∀ (ps : List String) (t : Tree),
    ∃ cs, t.Logs cs (t.deleteAll ps).1 := by
  intro ps
  induction ps with
  | nil => intro t; exact ⟨[], logs_refl t⟩
  | cons p ps ih =>
    intro t
    unfold deleteAll
    cases hd : t.delete p with
    | error e => exact ih t
    | ok x =>
      obtain ⟨cs, hcs⟩ := ih x.1
      exact ⟨_, (logs_delete hd).trans hcs⟩

theorem history_watch (t : Tree) (s : SessionId) (p : String) (l : Listener) :
    (t.watch s p l).history = t.history := by
  unfold watch
  dsimp only
  split <;> rfl

theorem history_unwatch (t : Tree) (p : String) (l : Listener) :
    (t.unwatch p l).history = t.history := by
  unfold unwatch
  split <;> rfl

/-! ### Acts -/

namespace Server

variable {v : Server} {a : Act}

/-- What is answered to an act, if it asks for something. -/
def reply? (v : Server) : Act → Option Reply
  | .request s q => some (v.answer s q).2.1
  | .write p data => some (v.write p data).2.1
  | _ => none

/-- The change of a node that an act asks for. -/
def Act.change? : Act → Option Change
  | .request _ (.create p _ mode) => some (.created p mode)
  | .request _ (.delete p) => some (.deleted p)
  | .request _ (.write p _) | .write p _ => some (.written p)
  | _ => none

/-- **What an act writes down**: the change that it asks for, if it is done, and the nodes that go
with a session in ascending order. -/
def records (v : Server) (a : Act) : List Change :=
  match a with
  | .close s => if v.isClosed s then [] else (v.tree.owned s).map .deleted
  | _ => if v.reply? a = some .done then a.change?.toList else []

theorem records_request (q : Request) : v.records (.request s q) =
    if (v.answer s q).2.1 = .done then (Act.request s q).change?.toList else [] := by
  simp only [records, reply?, Option.some.injEq]

theorem logs_commit {r : Except Failure (Tree × List Delivery)} {c : Change}
    (h : ∀ t ds, r = .ok (t, ds) → v.tree.Logs [c] t) :
    v.tree.Logs (if (v.commit r).2.1 = .done then [c] else []) (v.commit r).1.tree := by
  cases r with
  | error e => exact logs_refl v.tree
  | ok x => exact h x.1 x.2 rfl

theorem logs_request (v : Server) (s : SessionId) (q : Request) :
    v.tree.Logs (v.records (.request s q)) (v.answer s q).1.tree := by
  rw [records_request]
  cases hc : v.isClosed s with
  | true =>
    have hfailed : v.answer s q = (v, .failed .sessionClosed, []) := by simp [answer, hc]
    rw [hfailed]
    exact logs_refl v.tree
  | false =>
    rw [answer_of_open hc]
    cases q with
    | create p data mode => exact logs_commit fun t ds h => logs_create h
    | delete p => exact logs_commit fun t ds h => logs_delete h
    | write p data => exact logs_commit fun t ds h => logs_write h
    | check p | read p => exact logs_refl v.tree
    | watch p l => exact logs_of_nodes (nodes_watch v.tree s p l) (history_watch v.tree s p l)
    | unwatch p l => exact logs_of_nodes (nodes_unwatch v.tree p l) (history_unwatch v.tree p l)

theorem logs_close (h : v.tree.Holds) (s : SessionId) :
    v.tree.Logs (v.records (.close s)) (v.close s).1.tree := by
  cases hc : v.isClosed s with
  | true =>
    simp only [records, close, hc, if_true]
    exact logs_refl v.tree
  | false =>
    obtain ⟨cs, hhistory, hreplay⟩ :=
      exists_logs_deleteAll (v.tree.owned s) (v.tree.dropWatches s)
    have htree : ((v.tree.dropWatches s).deleteAll (v.tree.owned s)).1 = (v.close s).1.tree := by
      simp only [close, hc, expire, Bool.false_eq_true, if_false]
    rw [htree] at hhistory hreplay
    -- what is written down is known, and so are the changes that can be taken up
    have hcs : cs = (v.tree.owned s).map .deleted := by
      rw [close_eq h hc] at hhistory
      exact (List.append_cancel_left hhistory).symm
    simp only [records, hc, Bool.false_eq_true, if_false]
    rw [← hcs]
    exact ⟨hhistory, hreplay⟩

/-- **Each act writes down what it does**, and this leads from one outline to the next. -/
theorem logs_act (h : v.tree.Holds) (ha : a ≠ .clearHistory) :
    v.tree.Logs (v.records a) (v.act a).1.tree := by
  cases a with
  | connect => exact logs_refl v.tree
  | request s q => exact logs_request v s q
  | write p data =>
    have hrecords : v.records (.write p data) =
        if (v.write p data).2.1 = .done then [.written p] else [] := by
      simp only [records, reply?, Option.some.injEq, Act.change?, Option.toList_some]
    rw [hrecords]
    exact logs_commit fun t ds hw => logs_write hw
  | close s => exact logs_close h s
  | clearHistory => exact absurd rfl ha

theorem history_of_failed {why : Failure} (h : v.reply? a = some (.failed why)) :
    (v.act a).1.tree.history = v.tree.history := by
  cases a with
  | request s q =>
    show (v.answer s q).1.tree.history = _
    rw [answer_of_failed (Option.some.inj h)]
  | write p data =>
    show (v.write p data).1.tree.history = _
    rw [write, commit_of_failed (Option.some.inj h)]
  | _ => exact nomatch h

namespace Ledger

variable {k : Ledger}

theorem logs_of_runs (h : k.Runs) (hkept : ∀ x ∈ k.acts, x.2 ≠ .clearHistory) :
    Tree.Logs ∅ (k.acts.flatMap fun x => x.1.records x.2) k.server.tree := by
  induction h with
  | refl => exact logs_refl ∅
  | @tail k k' hruns hn ih =>
    cases hn with
    | act a =>
      have hbefore := ih fun x hx => hkept x (List.mem_append_left _ hx)
      have hlast := hkept (k.server, a) (List.mem_append_right _ List.mem_cons_self)
      have hact := logs_act (Runs.holds hruns).now hlast
      show Tree.Logs ∅ ((k.acts ++ [(k.server, a)]).flatMap _) _
      rw [List.flatMap_append, List.flatMap_singleton]
      exact hbefore.trans hact
    | call owed => exact ih hkept

/-- **The history is a faithful log.**  However acts and calls of listeners follow each other, the
history lists what the acts did, each act in its turn, and nothing for an act that failed.  All its
changes can be taken up one after the other, which leads to the paths of the nodes that are there,
and to which of them go with a session. -/
theorem replays_of_runs (h : k.Runs) (hkept : ∀ x ∈ k.acts, x.2 ≠ .clearHistory) :
    (∃ o, Outline.replay ∅ k.server.tree.history = some o ∧ o.keys = k.server.tree.paths ∧
      ∀ p, o.get? p = k.server.tree.isEphemeral? p) ∧
    k.server.tree.history = k.acts.flatMap (fun x => x.1.records x.2) ∧
    ∀ x ∈ k.acts, ∀ why, x.1.reply? x.2 = some (.failed why) →
      (x.1.act x.2).1.tree.history = x.1.tree.history := by
  obtain ⟨hhistory, hreplay⟩ := logs_of_runs h hkept
  have hlist : k.server.tree.history = k.acts.flatMap fun x => x.1.records x.2 :=
    hhistory.trans (List.nil_append _)
  refine ⟨⟨k.server.tree.outline, ?_, keys_outline _, get?_outline _⟩, hlist,
    fun x _ why hfailed => history_of_failed hfailed⟩
  rw [hlist]
  exact hreplay

/-- A node is created that goes with its session, and the listener that is told of it closes this
session.  Then the node above it can be deleted, which failed before. -/
def retold : Ledger :=
  let k := (blank.act .connect).act .connect
  let k := k.act (.request 1 (.create "/a" [] .persistent))
  let k := k.act (.request 1 (.watch "/a/b" (.named "l")))
  let k := k.act (.request 2 (.create "/a/b" [1] .ephemeral))
  let k := k.call (4, ⟨.named "l", .changed "/a/b" [1]⟩)
  let k := (k.act (.request 1 (.delete "/a"))).act (.close 2)
  let k := (k.act (.request 2 (.create "/c" [] .ephemeral))).act (.write "/a" [2])
  k.act (.request 1 (.delete "/a"))

theorem runs_retold : retold.Runs := by
  refine .tail (.tail (.tail (.tail (.tail (.tail (.tail (.tail (.tail (.tail (.tail .refl
    (.act _)) (.act _)) (.act _)) (.act _)) (.act _)) (.call ?_)) (.act _)) (.act _)) (.act _))
    (.act _)) (.act _)
  decide

theorem replays_of_retold : retold.Runs ∧ (∀ x ∈ retold.acts, x.2 ≠ .clearHistory) ∧
    retold.server.tree.history = [.created "/a" .persistent, .created "/a/b" .ephemeral,
      .deleted "/a/b", .written "/a", .deleted "/a"] ∧
    (∃ o, Outline.replay ∅ retold.server.tree.history = some o ∧
      o.keys = retold.server.tree.paths ∧ ∀ p, o.get? p = retold.server.tree.isEphemeral? p) ∧
    retold.server.tree.history = retold.acts.flatMap (fun x => x.1.records x.2) ∧
    ∀ x ∈ retold.acts, ∀ why, x.1.reply? x.2 = some (.failed why) →
      (x.1.act x.2).1.tree.history = x.1.tree.history := by
  have hkept : ∀ x ∈ retold.acts, x.2 ≠ .clearHistory := by decide
  exact ⟨runs_retold, hkept, by decide, replays_of_runs runs_retold hkept⟩

end Ledger

end Server

end Discovery.Tree
