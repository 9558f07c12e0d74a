/-!
# Listeners

The tree and the naming clients call listeners.  A listener is known by its identity alone: an
outside party by its name, and a registry's own listener by the registry, the key it serves and a
serial number, so that two listeners made for one key are still two.
-/

namespace Discovery

/-- Who is called when something that is watched changes. -/
inductive Listener where
  /-- An outside party. -/
  | named (name : String)
  /-- The listener that a registry made for one of its keys. -/
  | forwarder (registry : Nat) (key : String) (serial : Nat)
deriving DecidableEq, Repr, Inhabited

end Discovery
