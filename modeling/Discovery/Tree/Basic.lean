import Discovery.Table
import Discovery.Text.Bytes
import Discovery.Tree.Path
import Discovery.Listener

/-!
# The node tree

A tree holds nodes under their paths, the watches that listeners keep on paths, and the list of
changes so far.  A node without an owner stays until it is deleted; an owned node goes when the
session that owns it ends, and may not have children.

A change is applied first and gives back the deliveries it owes: one for each listener that
watched the path when the change was applied.  An operation that fails gives no tree back.

* `watchesAt_watch`, `watchesAt_unwatch`, `watchesAt_dropWatches`: who watches a path afterwards.
-/

namespace Discovery.Tree

abbrev SessionId := Nat

/-- How long a node lives. -/
inductive Mode where
  | persistent
  | ephemeral
deriving DecidableEq, Repr, Inhabited

def Mode.ofEphemeral (ephemeral : Bool) : Mode :=
  if ephemeral then .ephemeral else .persistent

/-- Why an operation on the tree failed. -/
inductive Failure where
  | noNode (path : String)
  | nodeExists (path : String)
  | notEmpty (path : String)
  | noChildrenForEphemerals (path : String)
  | badArguments (path : String)
  | sessionClosed
  | connection (text : String)
deriving DecidableEq, Repr, Inhabited

def Failure.message : Failure → String
  | .noNode p => "node does not exist: " ++ p
  | .nodeExists p => "node already exists: " ++ p
  | .notEmpty p => "node has children: " ++ p
  | .noChildrenForEphemerals p => "ephemeral node cannot have children: " ++ p
  | .badArguments p => "invalid path: " ++ p
  | .sessionClosed => "session closed"
  | .connection text => "connection error: " ++ text

/-- A node: its data, and the session that owns it if it is ephemeral. -/
structure Node where
  data : Bytes
  owner : Option SessionId
deriving DecidableEq, Repr, Inhabited

def Node.isEphemeral (n : Node) : Bool :=
  n.owner.isSome

/-- A listener on a path, and the session through which it was put there. -/
structure Watch where
  session : SessionId
  listener : Listener
deriving DecidableEq, Repr, Inhabited

/-- A change of the tree, as the history records it. -/
inductive Change where
  | created (path : String) (mode : Mode)
  | deleted (path : String)
  | written (path : String)
deriving DecidableEq, Repr, Inhabited

/-- What a listener is told. -/
inductive Event where
  /-- The node was created or its data replaced. -/
  | changed (path : String) (data : Bytes)
  /-- The node was deleted. -/
  | deleted (path : String)
deriving DecidableEq, Repr, Inhabited

/-- A call of a listener that a change owes. -/
structure Delivery where
  listener : Listener
  event : Event
deriving DecidableEq, Repr, Inhabited

end Tree

/-- Nodes, watches and the changes so far, oldest first. -/
structure Tree where
  nodes : Table Tree.Node
  watches : Table (List Tree.Watch)
  history : List Tree.Change
deriving DecidableEq, Repr, Inhabited

namespace Tree

def empty : Tree := ⟨∅, ∅, []⟩

instance : EmptyCollection Tree := ⟨empty⟩

/-! ## Reading -/

/-- The root is always there. -/
def contains (t : Tree) (p : String) : Bool :=
  p == "/" || t.nodes.contains p

def data? (t : Tree) (p : String) : Option Bytes :=
  (t.nodes.get? p).map (·.data)

def isEphemeral? (t : Tree) (p : String) : Option Bool :=
  (t.nodes.get? p).map (·.isEphemeral)

/-- Whether some node lies below `p`: the paths below `p` are neighbours in the order of paths,
so it is enough to look at the first path from `p/` on. -/
def hasChildren (t : Tree) (p : String) : Bool :=
  match t.nodes.from? (Path.below p) with
  | some (q, _) => Path.startsWith q (Path.below p)
  | none => false

/-- The names of the direct children of `p`, in ascending order. -/
def children (t : Tree) (p : String) : List String :=
  let start := if p = "/" then "/" else Path.below p
  (t.nodes.keys.filterMap (Path.after? · start)).filter fun name =>
    name != "" && !name.toList.contains '/'

def paths (t : Tree) : List String :=
  t.nodes.keys

def watchesAt (t : Tree) (p : String) : List Watch :=
  t.watches.getD p []

/-- The deliveries that an event on `p` owes. -/
def deliveries (t : Tree) (p : String) (e : Event) : List Delivery :=
  (t.watchesAt p).map fun w => ⟨w.listener, e⟩

/-! ## Changing -/

/-- A new node may stand at the top or under a node that stays. -/
def checkParent (t : Tree) (p : String) : Except Failure Unit :=
  match Path.parent? p with
  | none => .ok ()
  | some q =>
    match t.nodes.get? q with
    | none => .error (.noNode q)
    | some n => if n.isEphemeral then .error (.noChildrenForEphemerals q) else .ok ()

def create (t : Tree) (s : SessionId) (p : String) (data : Bytes) (mode : Mode) :
    Except Failure (Tree × List Delivery) := do
  if !Path.isNode p then throw (.badArguments p)
  if t.contains p then throw (.nodeExists p)
  t.checkParent p
  let owner := match mode with
    | .ephemeral => some s
    | .persistent => none
  return ({ t with
    nodes := t.nodes.insert p ⟨data, owner⟩
    history := t.history ++ [.created p mode] }, t.deliveries p (.changed p data))

/-- Deletes a node without children. -/
def delete (t : Tree) (p : String) : Except Failure (Tree × List Delivery) := do
  if !Path.isNode p then throw (.badArguments p)
  if !t.nodes.contains p then throw (.noNode p)
  if t.hasChildren p then throw (.notEmpty p)
  return ({ t with
    nodes := t.nodes.erase p
    history := t.history ++ [.deleted p] }, t.deliveries p (.deleted p))

def write (t : Tree) (p : String) (data : Bytes) : Except Failure (Tree × List Delivery) :=
  match t.nodes.get? p with
  | none => .error (.noNode p)
  | some n => .ok ({ t with
      nodes := t.nodes.insert p { n with data }
      history := t.history ++ [.written p] }, t.deliveries p (.changed p data))

/-- Puts a listener on a path; one that is there already stays as it is. -/
def watch (t : Tree) (s : SessionId) (p : String) (l : Listener) : Tree :=
  let ws := t.watchesAt p
  if ws.any (·.listener == l) then t
  else { t with watches := t.watches.insert p (ws ++ [⟨s, l⟩]) }

/-- Takes a listener off a path, whoever put it there. -/
def unwatch (t : Tree) (p : String) (l : Listener) : Tree :=
  match t.watches.get? p with
  | none => t
  | some ws =>
    let kept := ws.filter (·.listener != l)
    { t with watches := if kept.isEmpty then t.watches.erase p else t.watches.insert p kept }

def dropWatches (t : Tree) (s : SessionId) : Tree :=
  { t with watches := t.watches.filterMap fun _ ws =>
      let kept := ws.filter (·.session != s)
      if kept.isEmpty then none else some kept }

/-! ### The watches on a path -/

@[simp] theorem watchesAt_empty (p : String) : (∅ : Tree).watchesAt p = [] := rfl

theorem watchesAt_watch (t : Tree) (s : SessionId) (p q : String) (l : Listener) :
    (t.watch s p l).watchesAt q =
      if q = p ∧ ¬ (t.watchesAt p).any (·.listener == l) then t.watchesAt p ++ [⟨s, l⟩]
      else t.watchesAt q := by
  unfold watch
  by_cases h : (t.watchesAt p).any (·.listener == l)
  · rw [if_pos h, if_neg fun hq => hq.2 h]
  · rw [if_neg h]
    by_cases hq : q = p
    · rw [if_pos ⟨hq, h⟩, hq]
      simp [watchesAt, Table.getD]
    · rw [if_neg fun hp => hq hp.1]
      simp [watchesAt, Table.getD, Table.get?_insert_of_ne _ _ hq]

theorem watchesAt_unwatch (t : Tree) (p q : String) (l : Listener) :
    (t.unwatch p l).watchesAt q =
      if q = p then (t.watchesAt p).filter (·.listener != l) else t.watchesAt q := by
  unfold unwatch
  cases h : t.watches.get? p with
  | none =>
    by_cases hq : q = p
    · subst hq
      simp [watchesAt, Table.getD, h]
    · simp [hq]
  | some ws =>
    by_cases hq : q = p
    · subst hq
      by_cases he : (ws.filter (·.listener != l)).isEmpty
      · simp [watchesAt, Table.getD, h, List.isEmpty_iff.1 he]
      · simp [watchesAt, Table.getD, h, he]
    · by_cases he : (ws.filter (·.listener != l)).isEmpty <;>
        simp [watchesAt, Table.getD, he, hq, Table.get?_erase_of_ne, Table.get?_insert_of_ne]

theorem watchesAt_dropWatches (t : Tree) (s : SessionId) (p : String) :
    (t.dropWatches s).watchesAt p = (t.watchesAt p).filter (·.session != s) := by
  unfold dropWatches watchesAt Table.getD
  rw [Table.get?_filterMap]
  cases h : t.watches.get? p with
  | none => simp
  | some ws =>
    show (if (ws.filter (·.session != s)).isEmpty then none
      else some (ws.filter (·.session != s))).getD [] = ws.filter (·.session != s)
    by_cases he : (ws.filter (·.session != s)).isEmpty
    · rw [if_pos he, List.isEmpty_iff.1 he]
      rfl
    · rw [if_neg he]
      rfl

/-! ## Ending a session -/

def owned (t : Tree) (s : SessionId) : List String :=
  (t.nodes.entries.filter (·.2.owner == some s)).map (·.1)

/-- Deletes the nodes of a list one after the other; one that cannot be deleted is passed over. -/
def deleteAll (t : Tree) : List String → Tree × List Delivery
  | [] => (t, [])
  | p :: ps =>
    match t.delete p with
    | .ok (t', ds) =>
      let (t'', ds') := t'.deleteAll ps
      (t'', ds ++ ds')
    | .error _ => t.deleteAll ps

/-- Ends a session: its watches go first, then its nodes. -/
def expire (t : Tree) (s : SessionId) : Tree × List Delivery :=
  (t.dropWatches s).deleteAll (t.owned s)

end Tree

end Discovery
