import Discovery.Naming.Remote.Settings
import Discovery.Naming.Remote.Status
import Discovery.Json.Decode
import Discovery.Roster

/-!
# Requests with failover

A request goes to the current server.  If the server cannot be reached, or the login there fails,
the client switches to the next server and tries again, as often as there are servers.  A token
that is rejected is forgotten, and the first time this gives one more try.

Several requests of one client may be under way at once; they share the choice of the current
server and the token.  A request goes on in steps: it chooses what to send, and it receives what
came back.  Between two steps others may change what is shared.
-/

namespace Discovery.Naming.Remote

/-! ## What is sent and what comes back -/

/-- One message to a server. -/
structure Exchange where
  method : String
  url : String
  query : List (String × String)
  form : List (String × String)
deriving DecidableEq, Repr, Inhabited

/-- What came back: nothing, or a status code and a body that may be unreadable. -/
inductive Answer where
  | dropped
  | reply (status : Nat) (body : Option String)
deriving DecidableEq, Repr, Inhabited

/-- Why a request failed. -/
inductive Trouble where
  /-- The exchange itself failed. -/
  | transport
  /-- The login was refused. -/
  | loginRefused
  /-- The token of a login could not be used any more. -/
  | noToken
  /-- The token was rejected. -/
  | rejected (status : Nat)
  /-- The server answered with another status than success. -/
  | status (code : Nat) (body : String)
  /-- There was no server to ask. -/
  | noServer
deriving DecidableEq, Repr, Inhabited

def Trouble.text : Trouble → String
  | .transport => "<transport>"
  | .loginRefused => "Authentication failed"
  | .noToken => "Failed to get token after authentication"
  | .rejected s => "Request rejected with status " ++ statusText s
  | .status s body => "Request failed with status " ++ statusText s ++ ": " ++ body
  | .noServer => "All servers failed"

/-- A sentence that ends with a trouble and says what follows.  Behind a failed exchange nothing is
said. -/
def Trouble.sentence (start : String) (t : Trouble) (rest : String) : String :=
  match t with
  | .transport => start ++ t.text
  | t => start ++ t.text ++ rest

def warning (message : String) : LogLine := ⟨"WARN", message, []⟩

/-! ## Tokens -/

/-- A token and the second in which it expires. -/
structure Token where
  text : String
  expires : Nat
deriving DecidableEq, Repr, Inhabited

/-- Tokens are not used any more so many seconds before they expire. -/
def refreshWindow : Nat := 300

/-- How many seconds a token lasts if the server does not say. -/
def defaultTtl : Nat := 18000

/-- The last second that a clock can show. -/
def clockLimit : Nat := Decimal.signedLimit - 1

def Token.usable (t : Token) (now : Nat) : Bool :=
  decide (now + refreshWindow < t.expires)

def member? (j : Json) (name : String) : Option Json :=
  match j with
  | .object ms => ms.lookup name
  | _ => none

/-- The token of a login reply and how many seconds it lasts, if there is one. -/
def loginToken? (j : Json) : Option (String × Nat) :=
  match member? j "accessToken" with
  | some (.text token) =>
    some (token, match member? j "tokenTtl" with
      | some (.number (.int n)) => if 0 ≤ n then n.toNat else defaultTtl
      | _ => defaultTtl)
  | _ => none

/-! ## The link -/

/-- What the requests of one client share: the current server and the token. -/
structure Link where
  current : Nat
  token : Option Token
deriving DecidableEq, Repr, Inhabited

def Link.new : Link := ⟨0, none⟩

def Link.server (k : Link) (s : Settings) : String :=
  s.servers.getD (k.current % s.servers.length) ""

def Link.switch (k : Link) (s : Settings) : Link :=
  { k with current := (k.current + 1) % s.servers.length }

/-- The token, if it may still be used. -/
def Link.token? (k : Link) (now : Nat) : Option String :=
  (k.token.filter (·.usable now)).map (·.text)

/-! ## Runs -/

/-- What a client wants to know or to have done. -/
structure Query where
  method : String
  path : String
  params : List (String × String)
deriving DecidableEq, Repr, Inhabited

/-- What a run waits for. -/
inductive Phase where
  | idle
  | loggingIn
  | asking
deriving DecidableEq, Repr, Inhabited

/-- A request under way. -/
structure Run where
  query : Query
  /-- How many rounds are left. -/
  attempts : Nat
  /-- Whether a rejected token still gives another round. -/
  relogin : Bool
  last : Option Trouble
  phase : Phase
deriving DecidableEq, Repr, Inhabited

/-- What a step of a run leads to. -/
inductive Move where
  | send (x : Exchange)
  | finished (r : Except Trouble String)
  /-- The clock cannot show the second in which the token expires. -/
  | panicked

def Run.new (s : Settings) (q : Query) : Run where
  query := q
  attempts := s.servers.length
  relogin := s.logsIn
  last := none
  phase := .idle

def loginExchange (s : Settings) (k : Link) : Exchange where
  method := "POST"
  url := s.url (k.server s) s.loginPath
  query := []
  form := [("username", s.user), ("password", s.password)]

/-- The message of a query: the namespace and the token follow the parameters. -/
def queryExchange (s : Settings) (k : Link) (q : Query) (token : Option String) : Exchange where
  method := q.method
  url := s.url (k.server s) q.path
  query := q.params ++ (if s.space = "" then [] else [("namespaceId", s.space)]) ++
    (match token with
      | some t => [("accessToken", t)]
      | none => [])
  form := []

def Run.ask (s : Settings) (k : Link) (r : Run) (token : Option String) : Run × Move :=
  ({ r with phase := .asking }, .send (queryExchange s k r.query token))

/-- Begins a round, if one is left: asks with a token that may be used, else logs in first. -/
def Run.next (s : Settings) (k : Link) (now : Nat) (r : Run) : Run × Move :=
  match r.attempts with
  | 0 => (r, .finished (.error (r.last.getD .noServer)))
  | n + 1 =>
    let r := { r with attempts := n }
    if !s.logsIn then r.ask s k none
    else
      match k.token? now with
      | some t => r.ask s k (some t)
      | none => ({ r with phase := .loggingIn }, .send (loginExchange s k))

/-- What a step leads to: the link, the run, what to do, and what is written down. -/
structure Received where
  link : Link
  run : Run
  move : Move
  log : List LogLine

/-- Switches to the next server after a trouble and begins the next round. -/
def Run.failOver (s : Settings) (k : Link) (now : Nat) (r : Run) (what : String) (t : Trouble) :
    Received :=
  let k := k.switch s
  let (r, move) := { r with last := some t }.next s k now
  ⟨k, r, move, [warning (t.sentence (what ++ " failed: ") ", switching to next server")]⟩

/-- Receives what came back from a login. -/
def Run.loggedIn (s : Settings) (k : Link) (now : Nat) (r : Run) (a : Answer) : Received :=
  match a with
  | .dropped => r.failOver s k now "Login" .transport
  | .reply status body =>
    if !isSuccess status then r.failOver s k now "Login" .loginRefused
    else
      match body.map fun b => Json.decode Json.readAny (Bytes.ofText b) with
      | some (.ok j) =>
        match loginToken? j with
        | none => r.failOver s k now "Login" .loginRefused
        | some (token, ttl) =>
          if clockLimit < now + ttl then ⟨k, r, .panicked, []⟩
          else
            let k := { k with token := some ⟨token, now + ttl⟩ }
            match k.token? now with
            | some t =>
              let (r, move) := r.ask s k (some t)
              ⟨k, r, move, []⟩
            | none => r.failOver s k now "Login" .noToken
      | _ => r.failOver s k now "Login" .transport

/-- Receives what came back from a query. -/
def Run.answered (s : Settings) (k : Link) (now : Nat) (r : Run) (a : Answer) : Received :=
  match a with
  | .dropped => r.failOver s k now "Request" .transport
  | .reply status body =>
    if s.logsIn && isRejection status then
      let k := { k with token := none }
      let r := { r with last := some (.rejected status) }
      let r := if r.relogin then { r with relogin := false, attempts := r.attempts + 1 } else r
      let (r, move) := r.next s k now
      ⟨k, r, move, [warning "Token rejected, re-authenticating..."]⟩
    else
      match body with
      | none => ⟨k, r, .finished (.error .transport), []⟩
      | some b =>
        if isSuccess status then ⟨k, r, .finished (.ok b), []⟩
        else
          let t := Trouble.status status b
          ⟨k, r, .finished (.error t), [⟨"ERROR", t.text, []⟩]⟩

def Run.receive (s : Settings) (k : Link) (now : Nat) (r : Run) (a : Answer) : Received :=
  match r.phase with
  | .loggingIn => r.loggedIn s k now a
  | _ => r.answered s k now a

/-! ## Running alone -/

/-- What a run came to: the link, the result unless the clock gave out, and what was written
down. -/
structure Completed where
  link : Link
  result : Option (Except Trouble String)
  log : List LogLine

/-- Goes on until the run is finished; `fuel` bounds the number of exchanges. -/
def Run.complete (s : Settings) (now : Nat) (network : Exchange → Answer) :
    Nat → Link → Run → Move → List LogLine → Completed
  | _, k, _, .finished res, log => ⟨k, some res, log⟩
  | _, k, _, .panicked, log => ⟨k, none, log⟩
  | 0, k, r, .send _, log => ⟨k, some (.error (r.last.getD .noServer)), log⟩
  | fuel + 1, k, r, .send x, log =>
    let got := r.receive s k now (network x)
    Run.complete s now network fuel got.link got.run got.move (log ++ got.log)

/-- Runs a query alone.  There is a round for each server and perhaps one more, and a round has at
most two exchanges. -/
def Link.run (k : Link) (s : Settings) (now : Nat) (network : Exchange → Answer) (q : Query) :
    Completed :=
  let (r, move) := (Run.new s q).next s k now
  r.complete s now network (2 * s.servers.length + 2) k move []

end Discovery.Naming.Remote
