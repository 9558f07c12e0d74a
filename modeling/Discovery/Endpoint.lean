import Discovery.Failure
import Discovery.Table
import Discovery.Text.Blank
import Discovery.Text.Quoted
import Discovery.Decimal.Layout

/-!
# Endpoints

An endpoint says where something can be reached: a host, a port, path segments and parameters.
Its key, `scheme://host:port/a/b?k=v&l=w`, names it in the tables of a registry, with the
parameters in ascending order of their names.  Its path, `/a/b`, names its node in the tree.
-/

namespace Discovery

/-- What is registered and subscribed to. -/
structure Endpoint where
  host : String
  port : UInt16
  segments : List String
  parameters : Table String
deriving DecidableEq, Repr, Inhabited

namespace Endpoint

/-- Why an endpoint has no key or no path. -/
inductive Fault where
  | noScheme
  | noSegments
  | emptySegment
deriving DecidableEq, Repr

def Fault.text : Fault → String
  | .noScheme => "type is null"
  | .noSegments => "paths is empty"
  | .emptySegment => "path segment is empty"

def Fault.toFailure (f : Fault) : Failure :=
  .illegalArgument f.text

/-! ## Building -/

/-- The endpoint of a host and a port, without segments and parameters. -/
def ofHost (host : String) (port : UInt16) : Endpoint :=
  { host, port, segments := [], parameters := ∅ }

/-- Appends a segment that is not there yet. -/
def addSegment (e : Endpoint) (s : String) : Endpoint :=
  if e.segments.contains s then e else { e with segments := e.segments ++ [s] }

def addSegments (e : Endpoint) (ss : List String) : Endpoint :=
  ss.foldl addSegment e

def setParameter (e : Endpoint) (name value : String) : Endpoint :=
  { e with parameters := e.parameters.insert name value }

/-! ## Keys and paths -/

def checkSegments (e : Endpoint) : Except Fault Unit :=
  if e.segments.any (· == "") then .error .emptySegment else .ok ()

/-- The parameters as `k=v` pairs with `&` between them, behind a question mark. -/
def query (e : Endpoint) : String :=
  if e.parameters.isEmpty then ""
  else "?" ++ Text.joinWith "&" (e.parameters.entries.map fun p => p.1 ++ "=" ++ p.2)

def authority (e : Endpoint) : String :=
  e.host ++ ":" ++ Decimal.digitsText e.port.toNat

def address (e : Endpoint) (scheme : String) : String :=
  scheme ++ "://" ++ e.authority ++ "/" ++ Text.joinWith "/" e.segments ++ e.query

def key (e : Endpoint) (scheme : String) : Except Fault String := do
  if scheme = "" then throw .noScheme
  e.checkSegments
  return e.address scheme

def path (e : Endpoint) : Except Fault String := do
  if e.segments.isEmpty then throw .noSegments
  e.checkSegments
  return "/" ++ Text.joinWith "/" e.segments

/-- An endpoint for people: its key under a scheme of no meaning, or its parts if it has none. -/
def display (e : Endpoint) : String :=
  match e.key "todo" with
  | .ok k => k
  | .error _ => e.authority ++ "/" ++ Text.quotedList e.segments

/-- How a report names the endpoint: by its key, or for people if it has none. -/
def describe (e : Endpoint) (scheme : String) : String :=
  match e.key scheme with
  | .ok k => k
  | .error _ => e.display

end Endpoint

end Discovery
