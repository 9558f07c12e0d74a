import Discovery.Naming.Remote.Request
import Mathlib.Data.List.Basic

/-!
# The course of a request

A request that runs alone sends its messages one after the other, and each of them is answered
before the next is sent.  A server may answer the same message differently at different times, so a
`Network` answers by the number of the message too.  A `Course` is what a request sent, and what it
came to.

* `Link.course?`: the course of a query, if it comes to an end after as many messages as a query
  may send.
* `run_eq_of_course`: over servers that always answer alike, this is what `Link.run` comes to.
* `rounds_of_dropped`: a round whose message is lost leaves the rest of the course to the next
  server.
* `receive_accepted`, `receive_rejected`, `receive_granted`, `receive_endless`: what a request does
  with a reply.
* `loggedIn_eq`: what it makes of a login, by what the login yields.
-/

namespace Discovery.Naming.Remote

/-- The number of the current server. -/
def Link.place (k : Link) (s : Settings) : Nat :=
  k.current % s.servers.length

/-- What comes back for each message, the first of which has the number 0. -/
abbrev Network := Nat → Exchange → Answer

/-- A message with the number of the server that it was sent to, and what was awaited of it. -/
structure Sent where
  server : Nat
  phase : Phase
  exchange : Exchange
deriving DecidableEq, Repr

/-- What a request sent, the first message first, and what it came to.  There is no result if the
clock gave out. -/
structure Course where
  sent : List Sent
  link : Link
  result : Option (Except Trouble String)

/-- A course before which other messages were sent. -/
def Course.behind (c : Course) (ms : List Sent) : Course :=
  { c with sent := ms ++ c.sent }

/-- The course of a request from a move on.  The next message has the number `i`. -/
def Run.course? (s : Settings) (now : Nat) (net : Network) :
    Nat → Nat → Link → Run → Move → Option Course
  | _, _, k, _, .finished res => some ⟨[], k, some res⟩
  | _, _, k, _, .panicked => some ⟨[], k, none⟩
  | 0, _, _, _, .send _ => none
  | fuel + 1, i, k, r, .send x =>
    let got := r.receive s k now (net i x)
    (Run.course? s now net fuel (i + 1) got.link got.run got.move).map
      (·.behind [⟨k.place s, r.phase, x⟩])

/-- The course of a request from the beginning of a round on. -/
def Run.rounds? (s : Settings) (now : Nat) (net : Network) (fuel i : Nat) (k : Link) (r : Run) :
    Option Course :=
  (r.next s k now).1.course? s now net fuel i k (r.next s k now).2

def Link.course? (k : Link) (s : Settings) (now : Nat) (net : Network) (q : Query) :
    Option Course :=
  (Run.new s q).rounds? s now net (2 * s.servers.length + 2) 0 k

variable {s : Settings} {now : Nat} {net : Network} {fuel i : Nat} {k k' : Link} {r : Run}
  {m : Move} {q : Query} {c : Course}

/-! ### Servers that always answer alike -/

theorem complete_eq_of_course {f : Exchange → Answer} {log : List LogLine}
    (hc : r.course? s now (fun _ => f) fuel i k m = some c) :
    (r.complete s now f fuel k m log).link = c.link ∧
      (r.complete s now f fuel k m log).result = c.result := by
  induction fuel generalizing i k r m c log with
  | zero =>
    cases m with
    | finished res =>
      obtain rfl := Option.some.inj hc
      exact ⟨rfl, rfl⟩
    | panicked =>
      obtain rfl := Option.some.inj hc
      exact ⟨rfl, rfl⟩
    | send x => exact nomatch hc
  | succ fuel ih =>
    cases m with
    | finished res =>
      obtain rfl := Option.some.inj hc
      exact ⟨rfl, rfl⟩
    | panicked =>
      obtain rfl := Option.some.inj hc
      exact ⟨rfl, rfl⟩
    | send x =>
      obtain ⟨d, hd, rfl⟩ := Option.map_eq_some_iff.1 hc
      obtain ⟨hlink, hresult⟩ := ih hd
      exact ⟨hlink, hresult⟩

/-- **Over servers that always answer alike, a query comes to what its course comes to.** -/
theorem run_eq_of_course {f : Exchange → Answer} (hc : k.course? s now (fun _ => f) q = some c) :
    (k.run s now f q).link = c.link ∧ (k.run s now f q).result = c.result :=
  complete_eq_of_course hc

/-! ### Rounds -/

/-- How a round begins: what is awaited, and the message. -/
def Link.opening (k : Link) (s : Settings) (now : Nat) (q : Query) : Phase × Exchange :=
  if s.logsIn = false then (.asking, queryExchange s k q none)
  else
    match k.token? now with
    | some t => (.asking, queryExchange s k q (some t))
    | none => (.loggingIn, loginExchange s k)

theorem opening_of_open (hs : s.logsIn = false) :
    k.opening s now q = (.asking, queryExchange s k q none) :=
  if_pos hs

theorem opening_of_token {t : String} (hs : s.logsIn = true) (ht : k.token? now = some t) :
    k.opening s now q = (.asking, queryExchange s k q (some t)) := by
  simp [Link.opening, hs, ht]

theorem opening_of_no_token (hs : s.logsIn = true) (ht : k.token? now = none) :
    k.opening s now q = (.loggingIn, loginExchange s k) := by
  simp [Link.opening, hs, ht]

/-- **A round that is left begins with a message to the current server.** -/
theorem next_of_attempts {a : Nat} (ha : r.attempts = a + 1) :
    r.next s k now = ({ r with attempts := a, phase := (k.opening s now r.query).1 },
      .send (k.opening s now r.query).2) := by
  unfold Run.next
  rw [ha]
  dsimp only
  cases hs : s.logsIn with
  | false =>
    rw [opening_of_open hs]
    rfl
  | true =>
    cases ht : k.token? now with
    | none =>
      rw [opening_of_no_token hs ht]
      rfl
    | some t =>
      rw [opening_of_token hs ht]
      rfl

theorem next_of_no_attempts (ha : r.attempts = 0) :
    r.next s k now = (r, .finished (.error (r.last.getD .noServer))) := by
  unfold Run.next
  rw [ha]

theorem rounds_of_no_attempts (ha : r.attempts = 0) :
    r.rounds? s now net fuel i k = some ⟨[], k, some (.error (r.last.getD .noServer))⟩ := by
  unfold Run.rounds?
  rw [next_of_no_attempts ha]
  cases fuel <;> rfl

theorem rounds_of_attempts {a : Nat} (ha : r.attempts = a + 1) :
    r.rounds? s now net fuel i k =
      Run.course? s now net fuel i k
        { r with attempts := a, phase := (k.opening s now r.query).1 }
        (.send (k.opening s now r.query).2) := by
  unfold Run.rounds?
  rw [next_of_attempts ha]

/-! ### What a request does with what comes back -/

theorem receive_dropped (s : Settings) (now : Nat) (k : Link) (r : Run) :
    (r.receive s k now .dropped).link = k.switch s ∧
      ((r.receive s k now .dropped).run, (r.receive s k now .dropped).move) =
        { r with last := some .transport }.next s (k.switch s) now := by
  unfold Run.receive
  split <;> exact ⟨rfl, rfl⟩

/-- **A round whose message is lost** leaves the rest of the course to the next server. -/
theorem rounds_of_dropped {a : Nat} (ha : r.attempts = a + 1)
    (hd : net i (k.opening s now r.query).2 = .dropped) :
    r.rounds? s now net (fuel + 1) i k =
      (Run.rounds? s now net fuel (i + 1) (k.switch s)
        { r with
          attempts := a, phase := (k.opening s now r.query).1, last := some .transport }).map
      (·.behind [⟨k.place s, (k.opening s now r.query).1, (k.opening s now r.query).2⟩]) := by
  rw [rounds_of_attempts ha]
  unfold Run.course?
  dsimp only
  rw [hd]
  obtain ⟨hlink, hnext⟩ := receive_dropped s now k
    { r with attempts := a, phase := (k.opening s now r.query).1 }
  obtain ⟨hrun, hmove⟩ := Prod.ext_iff.1 hnext
  dsimp only at hrun hmove
  rw [hlink, hrun, hmove]
  rfl

/-- Whether a message got a good reply. -/
def Answer.Accepts (a : Answer) (body : String) : Prop :=
  ∃ status, isSuccess status = true ∧ a = .reply status (some body)

/-- Whether a message got the reply that its token is not accepted. -/
def Answer.Rejects (a : Answer) : Prop :=
  ∃ status body, isRejection status = true ∧ a = .reply status body

/-- The token that an answer to a login grants and how many seconds it lasts. -/
def Answer.grant? : Answer → Option (String × Nat)
  | .reply status (some body) =>
    if isSuccess status then
      match Json.decode Json.readAny (Bytes.ofText body) with
      | .ok j => loginToken? j
      | .error _ => none
    else none
  | _ => none

theorem isRejection_of_isSuccess {status : Nat} (h : isSuccess status = true) :
    isRejection status = false := by
  simp only [isSuccess, isRejection, Bool.and_eq_true, decide_eq_true_eq, Bool.or_eq_false_iff,
    beq_eq_false_iff_ne] at h ⊢
  omega

theorem receive_accepted {a : Answer} {body : String} (hp : r.phase = .asking)
    (ha : a.Accepts body) : r.receive s k now a = ⟨k, r, .finished (.ok body), []⟩ := by
  obtain ⟨status, hok, rfl⟩ := ha
  have hrej := isRejection_of_isSuccess hok
  simp only [Run.receive, hp, Run.answered, hrej, hok, Bool.and_false, Bool.false_eq_true, if_false,
    if_true]

/-- A token that is rejected is forgotten, and the first time this is made up for by another
round. -/
theorem receive_rejected {a : Answer} (now : Nat) (k : Link) (hs : s.logsIn = true)
    (hp : r.phase = .asking) (hr : r.relogin = true) (ha : a.Rejects) :
    (r.receive s k now a).link = { k with token := none } ∧
      ∃ t, ((r.receive s k now a).run, (r.receive s k now a).move) =
        { r with attempts := r.attempts + 1, relogin := false, last := some t }.next s
          { k with token := none } now := by
  obtain ⟨status, body, hrej, rfl⟩ := ha
  simp only [Run.receive, hp, Run.answered, hs, hrej, Bool.and_true, if_true, hr]
  exact ⟨trivial, .rejected status, rfl⟩

theorem exists_reply_of_grant {a : Answer} {g : String × Nat} (ha : a.grant? = some g) :
    ∃ status body j, a = .reply status (some body) ∧ isSuccess status = true ∧
      Json.decode Json.readAny (Bytes.ofText body) = .ok j ∧ loginToken? j = some g := by
  unfold Answer.grant? at ha
  split at ha
  · next status body =>
    split at ha
    · next hok =>
      split at ha
      · next j hj => exact ⟨status, body, j, rfl, hok, hj, ha⟩
      · exact nomatch ha
    · exact nomatch ha
  · exact nomatch ha

/-! ### Logins -/

/-- What a login yields: a token and how many seconds it lasts, or the trouble. -/
def Answer.grantOrTrouble : Answer → Except Trouble (String × Nat)
  | .dropped => .error .transport
  | .reply status body =>
    if !isSuccess status then .error .loginRefused
    else
      match body.map fun b => Json.decode Json.readAny (Bytes.ofText b) with
      | some (.ok j) =>
        match loginToken? j with
        | none => .error .loginRefused
        | some g => .ok g
      | _ => .error .transport

/-- A request that has kept a token asks with it, if it may be used. -/
def Run.fetched (s : Settings) (k : Link) (now : Nat) (r : Run) : Received :=
  match k.token? now with
  | some token => ⟨k, (r.ask s k (some token)).1, (r.ask s k (some token)).2, []⟩
  | none => r.failOver s k now "Login" .noToken

/-- **What a request makes of a login**, by what the login yields. -/
theorem loggedIn_eq (s : Settings) (k : Link) (now : Nat) (r : Run) (a : Answer) :
    r.loggedIn s k now a =
      match a.grantOrTrouble with
      | .error why => r.failOver s k now "Login" why
      | .ok (token, ttl) =>
        if clockLimit < now + ttl then ⟨k, r, .panicked, []⟩
        else r.fetched s { k with token := some ⟨token, now + ttl⟩ } now := by
  cases a with
  | dropped => rfl
  | reply status body =>
    unfold Run.loggedIn Answer.grantOrTrouble
    dsimp only
    split
    · rfl
    · cases body with
      | none => rfl
      | some b =>
        cases hj : Json.decode Json.readAny (Bytes.ofText b) with
        | error e => simp only [Option.map_some, hj]
        | ok j =>
          simp only [Option.map_some, hj]
          cases loginToken? j <;> rfl

theorem grantOrTrouble_of_grant {a : Answer} {g : String × Nat} (ha : a.grant? = some g) :
    a.grantOrTrouble = .ok g := by
  obtain ⟨status, body, j, rfl, hok, hj, ht⟩ := exists_reply_of_grant ha
  simp only [Answer.grantOrTrouble, hok, Bool.not_true, Bool.false_eq_true, if_false,
    Option.map_some, hj, ht]

theorem exists_trouble_of_no_grant {a : Answer} (ha : a.grant? = none) :
    ∃ why, a.grantOrTrouble = .error why := by
  cases a with
  | dropped => exact ⟨_, rfl⟩
  | reply status body =>
    unfold Answer.grantOrTrouble
    dsimp only
    split
    · exact ⟨_, rfl⟩
    · next hok =>
      cases body with
      | none => exact ⟨_, rfl⟩
      | some b =>
        unfold Answer.grant? at ha
        dsimp only at ha
        rw [if_pos (by simpa using hok)] at ha
        rw [Option.map_some]
        cases hj : Json.decode Json.readAny (Bytes.ofText b) with
        | error e => exact ⟨_, rfl⟩
        | ok j =>
          rw [hj] at ha
          dsimp only at ha ⊢
          rw [ha]
          exact ⟨_, rfl⟩

theorem token?_granted {t : String} {ttl : Nat} (hlasts : refreshWindow < ttl) :
    ({ k with token := some ⟨t, now + ttl⟩ } : Link).token? now = some t := by
  have hlate : now + refreshWindow < now + ttl := by omega
  simp [Link.token?, Option.filter, Token.usable, hlate]

theorem token?_brief {t : String} {ttl : Nat} (hlasts : ttl ≤ refreshWindow) :
    ({ k with token := some ⟨t, now + ttl⟩ } : Link).token? now = none := by
  have hearly : ¬ now + refreshWindow < now + ttl := by omega
  simp [Link.token?, Option.filter, Token.usable, hearly]

theorem receive_of_loggingIn {a : Answer} (hp : r.phase = .loggingIn) :
    r.receive s k now a = r.loggedIn s k now a := by
  unfold Run.receive
  rw [hp]

theorem receive_of_grant {a : Answer} {t : String} {ttl : Nat} (hp : r.phase = .loggingIn)
    (ha : a.grant? = some (t, ttl)) :
    r.receive s k now a =
      if clockLimit < now + ttl then ⟨k, r, .panicked, []⟩
      else r.fetched s { k with token := some ⟨t, now + ttl⟩ } now := by
  rw [receive_of_loggingIn hp, loggedIn_eq, grantOrTrouble_of_grant ha]

/-- **A token that is granted is used at once.** -/
theorem receive_granted {a : Answer} {t : String} {ttl : Nat} (hp : r.phase = .loggingIn)
    (ha : a.grant? = some (t, ttl)) (httl : refreshWindow < ttl)
    (hclock : now + ttl ≤ clockLimit) :
    r.receive s k now a =
      ⟨{ k with token := some ⟨t, now + ttl⟩ }, { r with phase := .asking },
        .send (queryExchange s k r.query (some t)), []⟩ := by
  rw [receive_of_grant hp ha, if_neg (Nat.not_lt.2 hclock), Run.fetched, token?_granted httl]
  rfl

/-- The clock gives out over a token that lasts too long. -/
theorem receive_endless {a : Answer} {t : String} {ttl : Nat} (hp : r.phase = .loggingIn)
    (ha : a.grant? = some (t, ttl)) (hclock : clockLimit < now + ttl) :
    r.receive s k now a = ⟨k, r, .panicked, []⟩ := by
  rw [receive_of_grant hp ha, if_pos hclock]

end Discovery.Naming.Remote
