import Discovery.Proofs.Tree.Sound
import Discovery.Tree.Server

/-!
# The states of a server

A server is changed by acts: sessions are opened and closed, and requests are made through them.
An act first changes the tree and then owes calls of listeners, which are made one after the
other.  A listener may act itself while it is called; the calls that such an act owes come before
those that are still owed from before.

`tree_sound_of_reaches`: whatever state a server comes to, also in the middle of these calls, its
tree is sound.
-/

namespace Discovery.Tree.Server

/-- What can be done to a server.  Dropping a session closes it. -/
inductive Act where
  | connect
  | request (s : SessionId) (q : Request)
  | write (p : String) (data : Bytes)
  | close (s : SessionId)
  | clearHistory
deriving DecidableEq, Repr

/-- The server after an act, and the calls of listeners that the act owes. -/
def act (v : Server) : Act → Server × List Delivery
  | .connect => (v.connect.1, [])
  | .request s q => ((v.answer s q).1, (v.answer s q).2.2)
  | .write p data => ((v.write p data).1, (v.write p data).2.2)
  | .close s => v.close s
  | .clearHistory => (v.clearHistory, [])

def Opened (v : Server) (s : SessionId) : Prop :=
  1 ≤ s ∧ s ≤ v.opened

/-- Requests are made through sessions that have been opened, closed or not. -/
def Possible (v : Server) : Act → Prop
  | .request s _ | .close s => v.Opened s
  | _ => True

/-- A server may come to a state in which the calls `ds` of listeners are still owed, the next one
first.  An act may happen at any time; when a call is begun, it is owed no longer, and what
happens from then on may be done by the listener that is called. -/
inductive Reaches : Server → List Delivery → Prop
  | start : Reaches ∅ []
  | act {v : Server} {ds : List Delivery} (a : Act) : Reaches v ds → v.Possible a →
      Reaches (v.act a).1 ((v.act a).2 ++ ds)
  | call {v : Server} {d : Delivery} {ds : List Delivery} : Reaches v (d :: ds) → Reaches v ds

/-- Whether a session has been opened and not been closed. -/
def Alive (v : Server) (s : SessionId) : Prop :=
  v.Opened s ∧ v.isClosed s = false

/-! ### One act -/

variable {v : Server} {s : SessionId}

theorem sound_commit {r : Except Failure (Tree × List Delivery)} (h : v.tree.Sound v.Alive)
    (hr : ∀ t ds, r = .ok (t, ds) → t.Sound v.Alive) :
    (v.commit r).1.tree.Sound (v.commit r).1.Alive := by
  cases r with
  | error e => exact h
  | ok x => exact hr x.1 x.2 rfl

theorem sound_perform (h : v.tree.Sound v.Alive) (hs : v.Alive s) (q : Request) :
    (v.perform s q).1.tree.Sound (v.perform s q).1.Alive := by
  cases q with
  | check p => exact h
  | create p data mode => exact sound_commit h fun t ds hc => h.create hs hc
  | delete p => exact sound_commit h fun t ds hd => h.delete hd
  | read p => exact h
  | write p data => exact sound_commit h fun t ds hw => h.write hw
  | watch p l => exact h.watch hs
  | unwatch p l => exact h.unwatch

theorem sound_close (h : v.tree.Sound v.Alive) (s : SessionId) :
    (v.close s).1.tree.Sound (v.close s).1.Alive := by
  by_cases hc : v.isClosed s
  · simpa [close, hc] using h
  · have he := h.expire (s := s)
    simp only [close, hc, Bool.false_eq_true, if_false]
    refine ⟨he.nodes.mono fun p n x hp ho => ?_, he.watches.mono fun p ws hp w hw => ?_⟩
    · obtain ⟨⟨ho, hx⟩, hne⟩ := he.nodes.owner p n x hp ho
      exact ⟨ho, by simpa [isClosed, hne] using hx⟩
    · obtain ⟨⟨ho, hx⟩, hne⟩ := he.watches.session p ws hp w hw
      exact ⟨ho, by simpa [isClosed, hne] using hx⟩

/-- **Each act keeps the tree sound.** -/
theorem sound_act (h : v.tree.Sound v.Alive) {a : Act} (ha : v.Possible a) :
    (v.act a).1.tree.Sound (v.act a).1.Alive := by
  cases a with
  | connect =>
    have hmono : ∀ x, v.Alive x → v.connect.1.Alive x :=
      fun x hx => ⟨⟨hx.1.1, Nat.le_succ_of_le hx.1.2⟩, hx.2⟩
    exact ⟨h.nodes.mono fun p n x hp ho => hmono x (h.nodes.owner p n x hp ho),
      h.watches.mono fun p ws hp w hw => hmono _ (h.watches.session p ws hp w hw)⟩
  | request s q =>
    by_cases hc : v.isClosed s
    · simpa [act, answer, hc] using h
    · have hs : v.Alive s := ⟨ha, by simpa using hc⟩
      simpa [act, answer, hc] using sound_perform h hs q
  | write p data => exact sound_commit h fun t ds hw => h.write hw
  | close s => exact sound_close h s
  | clearHistory => exact ⟨h.nodes, h.watches⟩

/-! ### All acts -/

theorem Reaches.sound {ds : List Delivery} (h : Reaches v ds) : v.tree.Sound v.Alive := by
  induction h with
  | start => exact sound_empty
  | act a _ ha ih => exact sound_act ih ha
  | call _ ih => exact ih

/-- **The tree of a server is always sound**: each path names a node; a node that is not at the
top stands under a node that is there and stays; who owns a node, or watches a path, has been
opened and not been closed; and no path is listed without a watch or with a listener twice. -/
theorem tree_sound_of_reaches {v : Server} {ds : List Delivery} (h : Reaches v ds) :
    v.tree.Sound v.Alive :=
  h.sound

/-- A server on which one session owns a node that another one watches; the node has just been
written to. -/
def watched : Server :=
  let v := ((∅ : Server).act .connect).1
  let v := (v.act .connect).1
  let v := (v.act (.request 1 (.create "/a" [] .persistent))).1
  let v := (v.act (.request 2 (.create "/a/b" [] .ephemeral))).1
  let v := (v.act (.request 1 (.watch "/a/b" (.named "l")))).1
  (v.act (.write "/a/b" [1])).1

/-- The listener closes the session that owns the node, while it is told of the writing. -/
theorem tree_sound_of_close_in_callback :
    (watched.act (.close 2)).1.tree.Sound (watched.act (.close 2)).1.Alive ∧
      (watched.act (.close 2)).1.tree.paths = ["/a"] :=
  ⟨tree_sound_of_reaches <| .act (.close 2)
      (.call <| .act (.write "/a/b" [1])
        (.act (.request 1 (.watch "/a/b" (.named "l")))
          (.act (.request 2 (.create "/a/b" [] .ephemeral))
            (.act (.request 1 (.create "/a" [] .persistent))
              (.act .connect (.act .connect .start trivial) trivial)
              ⟨by decide, by decide⟩)
            ⟨by decide, by decide⟩)
          ⟨by decide, by decide⟩)
        trivial)
      ⟨by decide, by decide⟩,
    by decide⟩

end Discovery.Tree.Server
