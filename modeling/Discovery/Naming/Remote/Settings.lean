import Discovery.Settings

/-!
# Settings of a remote naming client

Where the naming servers are and how to talk to them.
-/

namespace Discovery.Naming.Remote

/-- The settings of a remote naming client; times are in milliseconds. -/
structure Settings where
  /-- The addresses of the servers, with their schemes. -/
  servers : List String
  /-- What stands in front of all paths. -/
  context : String
  /-- The namespace, empty for the public one. -/
  space : String
  /-- The user, empty if there is no login. -/
  user : String
  password : String
  connectMs : Nat
  readMs : Nat
  beatMs : Nat
  pollMs : Nat
  loginPath : String
deriving DecidableEq, Repr, Inhabited

/-- Takes a slash and all that follow it off the end of a text. -/
def dropSlashes (s : String) : String :=
  String.ofList (Text.dropEnd (· == '/') s.toList)

def startsWith (s start : String) : Bool :=
  start.toList.isPrefixOf s.toList

/-- An address with a scheme and without blanks around it and slashes at its end. -/
def normalize (address : String) : String :=
  let a := dropSlashes (Text.trim address)
  if startsWith a "http://" || startsWith a "https://" then a else "http://" ++ a

namespace Settings

/-- The settings that hold where nothing is said. -/
def default : Settings where
  servers := ["http://127.0.0.1:8848"]
  context := "/nacos"
  space := ""
  user := ""
  password := ""
  connectMs := 5000
  readMs := 30000
  beatMs := 5000
  pollMs := 10000
  loginPath := "/v1/auth/login"

def ofServer (address : String) : Settings :=
  { default with servers := [normalize address] }

/-- The settings that the settings of a registry stand for. -/
def ofSettings (s : Discovery.Settings) : Except Failure Settings := do
  let servers := s.addresses.map normalize
  if servers.isEmpty then throw (.config "nacos server list is empty")
  let connectMs ← s.number "connectTimeout" default.connectMs
  let readMs ← s.number "readTimeout" default.readMs
  let beatMs ← s.number "beatInterval" default.beatMs
  let pollMs ← s.number "subscribeInterval" default.pollMs
  return { default with
    servers, connectMs, readMs, beatMs, pollMs
    context := s.propD "contextPath" default.context
    space := s.propD "namespace" ""
    user := s.propD "username" ""
    password := s.propD "password" "" }

def logsIn (s : Settings) : Bool :=
  s.user != ""

def bareContext (s : Settings) : String :=
  dropSlashes (String.ofList (s.context.toList.dropWhile (· == '/')))

def url (s : Settings) (server path : String) : String :=
  if s.bareContext = "" then server ++ path else server ++ "/" ++ s.bareContext ++ path

end Settings

end Discovery.Naming.Remote
