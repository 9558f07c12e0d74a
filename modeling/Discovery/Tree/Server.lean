import Discovery.Tree.Basic

/-!
# The tree server

A server holds one tree and counts the sessions opened on it.  A client call is a request made
through a session; the answer is a reply together with the deliveries that the request owes.  A
request that fails leaves the server as it was.
-/

namespace Discovery.Tree

/-- What is asked of the tree through a session. -/
inductive Request where
  | check (path : String)
  | create (path : String) (data : Bytes) (mode : Mode)
  | delete (path : String)
  | read (path : String)
  | write (path : String) (data : Bytes)
  | watch (path : String) (listener : Listener)
  | unwatch (path : String) (listener : Listener)
deriving DecidableEq, Repr, Inhabited

def Request.path : Request → String
  | .check p | .create p _ _ | .delete p | .read p | .write p _ | .watch p _ | .unwatch p _ => p

inductive Reply where
  | done
  | present (there : Bool)
  | found (data : Option Bytes)
  | failed (why : Failure)
deriving DecidableEq, Repr, Inhabited

/-- One tree and the sessions opened on it, numbered from 1. -/
structure Server where
  tree : Tree
  opened : Nat
  closed : List SessionId
deriving DecidableEq, Repr, Inhabited

namespace Server

def empty : Server := ⟨∅, 0, []⟩

instance : EmptyCollection Server := ⟨empty⟩

def connect (v : Server) : Server × SessionId :=
  ({ v with opened := v.opened + 1 }, v.opened + 1)

def isClosed (v : Server) (s : SessionId) : Bool :=
  v.closed.contains s

/-- The server after a change of its tree, with what the change owes. -/
def commit (v : Server) (r : Except Failure (Tree × List Delivery)) :
    Server × Reply × List Delivery :=
  match r with
  | .ok (t, ds) => ({ v with tree := t }, .done, ds)
  | .error e => (v, .failed e, [])

def perform (v : Server) (s : SessionId) : Request → Server × Reply × List Delivery
  | .check p => (v, .present (v.tree.contains p), [])
  | .create p data mode => v.commit (v.tree.create s p data mode)
  | .delete p => v.commit (v.tree.delete p)
  | .read p => (v, .found (v.tree.data? p), [])
  | .write p data => v.commit (v.tree.write p data)
  | .watch p l => ({ v with tree := v.tree.watch s p l }, .done, [])
  | .unwatch p l => ({ v with tree := v.tree.unwatch p l }, .done, [])

/-- Answers a request; a closed session gets nothing done. -/
def answer (v : Server) (s : SessionId) (q : Request) : Server × Reply × List Delivery :=
  if v.isClosed s then (v, .failed .sessionClosed, []) else v.perform s q

def write (v : Server) (p : String) (data : Bytes) : Server × Reply × List Delivery :=
  v.commit (v.tree.write p data)

/-- Ends a session; ending it again does nothing. -/
def close (v : Server) (s : SessionId) : Server × List Delivery :=
  if v.isClosed s then (v, [])
  else
    let (t, ds) := v.tree.expire s
    ({ v with tree := t, closed := v.closed ++ [s] }, ds)

def clearHistory (v : Server) : Server :=
  { v with tree := { v.tree with history := [] } }

end Server

end Discovery.Tree
