import Discovery.Naming.Remote.Request
import Discovery.Naming.Group
import Discovery.Naming.Directory

/-!
# Queries of a remote naming client

What is sent to register and deregister an instance, to say that it is alive, and to list the
instances of a service, and how the answers are read.
-/

namespace Discovery.Naming.Remote

def instancePath : String := "/v1/ns/instance"

def beatPath : String := "/v1/ns/instance/beat"

def listPath : String := "/v1/ns/instance/list"

def clusterOf (i : Instance) : String :=
  if i.cluster = "" then defaultCluster else i.cluster

def boolText (b : Bool) : String :=
  if b then "true" else "false"

def portText (p : UInt16) : String :=
  Decimal.digitsText p.toNat

def serviceParams (service : String) : List (String × String) :=
  [("serviceName", Group.join service Group.default), ("groupName", Group.default)]

def registerQuery (service : String) (i : Instance) : Query where
  method := "POST"
  path := instancePath
  params := serviceParams service ++
    [("ip", i.ip), ("port", portText i.port), ("weight", i.weight.plain),
     ("enable", boolText i.enabled), ("healthy", boolText i.healthy),
     ("ephemeral", boolText i.ephemeral), ("clusterName", clusterOf i),
     ("metadata", (Json.ofTexts i.metadata).render)]

def deregisterQuery (service ip : String) (port : UInt16) (ephemeral : Bool) : Query where
  method := "DELETE"
  path := instancePath
  params := serviceParams service ++
    [("ip", ip), ("port", portText port), ("ephemeral", boolText ephemeral),
     ("clusterName", defaultCluster)]

/-- The sign of life of an instance. -/
def beatJson (service : String) (i : Instance) (periodMs : Nat) : Json :=
  .object
    [("serviceName", .text (Group.join service Group.default)), ("ip", .text i.ip),
     ("port", .number (.int i.port.toNat)), ("weight", .number (.double i.weight)),
     ("cluster", .text (clusterOf i)), ("metadata", Json.ofTexts i.metadata),
     ("scheduled", .bool false), ("period", .number (.int periodMs)), ("stopped", .bool false)]

def beatQuery (service : String) (i : Instance) (periodMs : Nat) : Query where
  method := "PUT"
  path := beatPath
  params := serviceParams service ++
    [("ip", i.ip), ("port", portText i.port), ("beat", (beatJson service i periodMs).render)]

def listQuery (service : String) : Query where
  method := "GET"
  path := listPath
  params := serviceParams service ++ [("healthyOnly", "false")]

/-! ## Answers -/

open Json

/-- The code with which a server says that it does not know the instance. -/
def unknownInstance : Int := 20404

/-- The code with which a server says that all is well. -/
def beatOk : Int := 10200

/-- The code of the answer to a sign of life; plain text says that all is well. -/
def beatCode (body : String) : Int :=
  let code : Reader Int := readInt (-(Decimal.signedLimit : Int)) (Decimal.signedLimit - 1 : Nat)
  let fields : List (FieldReader Int) := [.of "code" code fun v _ => v]
  match decode (readRecord fields 0) (Bytes.ofText body) with
  | .ok n => n
  | .error _ => beatOk

/-- A list of instances as a server sends it. -/
structure Listing where
  name : String
  hosts : List Instance
deriving DecidableEq, Repr, Inhabited

def Listing.fields : List (FieldReader Listing) :=
  [.of "name" readString fun v l => { l with name := v },
   .of "hosts" (readList Instance.reader) fun v l => { l with hosts := v }]

/-- An instance of a listing, with the service it belongs to. -/
def named (service : String) (i : Instance) : Instance :=
  let name := Group.strip i.service
  { i with service := if name = "" then service else name }

/-- Whether a listing is for another service. -/
def Listing.isForeign (l : Listing) (service : String) : Bool :=
  l.name != "" && Group.strip l.name != service

/-- What is written down about a listing for another service. -/
def foreignLine (service : String) (l : Listing) : LogLine :=
  warning ("Instance list for " ++ service ++ " answered with service " ++ l.name)

/-- The instances of a listing, in ascending order of their keys. -/
def Listing.instances (l : Listing) (service : String) : List Instance :=
  (l.hosts.map (named service)).mergeSort fun a b => decide (a.key ≤ b.key)

def readListing (service body : String) : Except Category (List Instance × List LogLine) := do
  let l ← decode (readRecord Listing.fields ⟨"", []⟩) (Bytes.ofText body)
  return (l.instances service, if l.isForeign service then [foreignLine service l] else [])

end Discovery.Naming.Remote
