import Discovery.Naming.Remote.Client
import Discovery.Registry.Services

/-!
# Registries from settings

What the settings of a registry must say before it can connect.

* `NodeAccess.ofSettings`: a registry over a node tree.
* `Services.ofSettings`: a registry over a remote naming client.
-/

namespace Discovery.Registry

/-- How a registry reaches the tree in which it stores nodes; times are in milliseconds. -/
structure NodeAccess where
  /-- The addresses of the servers, with commas between them. -/
  servers : String
  sessionMs : Nat
  connectionMs : Nat
deriving DecidableEq, Repr, Inhabited

/-- The access to the tree that settings stand for. -/
def NodeAccess.ofSettings (s : Settings) : Except Failure NodeAccess := do
  let servers := Text.joinWith "," s.addresses
  if servers = "" then throw (.config "zookeeper server list is empty")
  let sessionMs ← s.number "sessionTimeout" 30000
  let connectionMs ← s.number "connectionTimeout" 3000
  return { servers, sessionMs, connectionMs }

/-- The registry over a remote naming client that settings stand for, and the client. -/
def Services.ofSettings (id : Nat) (s : Settings) :
    Except Failure (Services × Naming.Remote.Client) := do
  let remote ← Naming.Remote.Settings.ofSettings s
  match Naming.Remote.Client.ofSettings? remote with
  | some client => return (.new id, client)
  | none => throw (.config Naming.Remote.Client.noServerText)

end Discovery.Registry
