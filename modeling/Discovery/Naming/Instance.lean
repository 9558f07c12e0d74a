import Discovery.Json.Decode

/-!
# Instances

An instance is one provider of a service.  It has an address, and an ephemeral instance lives as
long as its provider keeps saying so.
-/

namespace Discovery.Naming

/-- A provider of a service. -/
structure Instance where
  id : String
  ip : String
  port : UInt16
  weight : Double
  healthy : Bool
  enabled : Bool
  ephemeral : Bool
  cluster : String
  service : String
  metadata : Table String
deriving DecidableEq, Repr, Inhabited

/-- The cluster of an instance that names none. -/
def defaultCluster : String := "DEFAULT"

namespace Instance

/-- An instance of which nothing is known. -/
def blank : Instance where
  id := ""
  ip := ""
  port := 0
  weight := Double.ofNat 0
  healthy := false
  enabled := false
  ephemeral := false
  cluster := ""
  service := ""
  metadata := ∅

def ofAddress (ip : String) (port : UInt16) : Instance :=
  { blank with
    ip, port
    weight := Double.ofNat 1
    healthy := true
    enabled := true
    ephemeral := true
    cluster := defaultCluster }

/-- The key under which instances of one service are told apart. -/
def key (i : Instance) : String :=
  i.ip ++ "#" ++ Decimal.digitsText i.port.toNat ++ "#" ++ i.cluster

def isAt (i : Instance) (ip : String) (port : UInt16) : Bool :=
  i.ip == ip && i.port == port

/-- Whether two instances are equal, their weights taken as numbers. -/
def same (a b : Instance) : Bool :=
  a.weight.same b.weight && { a with weight := b.weight } == b

/-! ## JSON -/

open Json

def fields : List (FieldReader Instance) :=
  [.of "instanceId" readString fun v i => { i with id := v },
   .of "ip" readString fun v i => { i with ip := v },
   .of "port" readPort fun v i => { i with port := v },
   .of "weight" readDouble fun v i => { i with weight := v },
   .of "healthy" readBool fun v i => { i with healthy := v },
   .of "enabled" readBool fun v i => { i with enabled := v },
   .of "ephemeral" readBool fun v i => { i with ephemeral := v },
   .of "clusterName" readString fun v i => { i with cluster := v },
   .of "serviceName" readString fun v i => { i with service := v },
   .of "metadata" (readTable readString) fun v i => { i with metadata := v }]

/-- Reads an instance, as part of a larger value. -/
def reader : Reader Instance :=
  readRecord fields blank

def ofJson (bs : Bytes) : Except Category Instance :=
  decode reader bs

end Instance

end Discovery.Naming
