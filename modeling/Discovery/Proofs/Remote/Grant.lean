import Discovery.Proofs.Remote.Response

/-!
# Granted tokens

A good reply to a login names a token and may say how many seconds it lasts.  A token is not used
any more a while before it expires, so one that lasts no longer than this is of no use from the
start: the login has failed, although the server granted it.

* `lifetime`: how long a token lasts by the reply that grants it.
* `used_of_course`, `discarded_of_course`: what a request does with a token that was granted.
* `grants_of_query`: all tokens that a query is granted are used or discarded, by their lifetimes.
* `discarded_of_short_token`: two servers, and a query that fails although both grant a token.
-/

namespace Discovery.Naming.Remote

variable {s : Settings} {now : Nat} {net : Network} {fuel i j ttl : Nat} {k : Link} {r : Run}
  {m : Move} {q : Query} {c : Course} {a : Answer} {y : Sent} {t : String}

/-! ### What is granted -/

def lifetime (reply : Json) : Nat :=
  match member? reply "tokenTtl" with
  | some (.number (.int (.ofNat n))) => n
  | _ => defaultTtl

theorem loginToken?_of_text {reply : Json} (h : member? reply "accessToken" = some (.text t)) :
    loginToken? reply = some (t, lifetime reply) := by
  unfold loginToken? lifetime
  rw [h]
  dsimp only
  split
  · next n hn =>
    rw [hn]
    cases n with
    | ofNat n => simp
    | negSucc n => rfl
  · next hno =>
    split
    · next n hn => exact absurd hn (hno n)
    · rfl

/-- An answer to a login that grants a token: a good reply that names it. -/
structure Answer.Grants (a : Answer) (t : String) (ttl : Nat) : Prop where
  reply : ∃ status body j, a = .reply status (some body) ∧ isSuccess status = true ∧
    Json.decode Json.readAny (Bytes.ofText body) = .ok j ∧
    member? j "accessToken" = some (.text t) ∧ lifetime j = ttl

theorem grant?_of_grants (ha : a.Grants t ttl) : a.grant? = some (t, ttl) := by
  obtain ⟨status, body, j, rfl, hok, hj, ht, rfl⟩ := ha.reply
  unfold Answer.grant?
  dsimp only
  rw [if_pos hok, hj]
  exact loginToken?_of_text ht

/-! ### What becomes of it -/

/-- The token that the message `y` was answered with is used: the next message is the query with the
token, to the same server. -/
def Course.Uses (c : Course) (s : Settings) (now : Nat) (q : Query) (j : Nat) (y : Sent)
    (t : String) : Prop :=
  ∃ k : Link, k.place s = y.server ∧ k.token? now = some t ∧ y.exchange = loginExchange s k ∧
    c.sent[j + 1]? = some ⟨y.server, .asking, queryExchange s k q (some t)⟩

/-- The token that the message `y` was answered with is discarded: a login at the next server
follows, or the request fails for want of a token. -/
structure Course.Discards (c : Course) (s : Settings) (j : Nat) (y : Sent) : Prop where
  next : ∀ y', c.sent[j + 1]? = some y' →
    y'.phase = .loggingIn ∧ y'.server = (y.server + 1) % s.servers.length
  ending : c.sent[j + 1]? = none → c.result = some (.error .noToken)

theorem head_of_send {x : Exchange} (hc : r.course? s now net fuel i k (.send x) = some c) :
    c.sent.head? = some ⟨k.place s, r.phase, x⟩ := by
  cases fuel with
  | zero => exact nomatch hc
  | succ fuel =>
    obtain ⟨d, -, rfl⟩ := Option.map_eq_some_iff.1 hc
    rfl

theorem exists_login (hfit : r.Fits s k m) (hc : r.course? s now net fuel i k m = some c)
    (hy : c.sent[j]? = some y) (hp : y.phase = .loggingIn) :
    ∃ (fuel' : Nat) (k' : Link) (r' : Run), r'.query = r.query ∧ r'.phase = .loggingIn ∧
      k'.place s = y.server ∧ y.exchange = loginExchange s k' ∧
      (r'.receive s k' now (net (i + j) y.exchange)).run.course? s now net fuel' (i + j + 1)
        (r'.receive s k' now (net (i + j) y.exchange)).link
        (r'.receive s k' now (net (i + j) y.exchange)).move =
          some ⟨c.sent.drop (j + 1), c.link, c.result⟩ := by
  obtain ⟨fuel', k', r', hquery, hfit', hstand, hcourse⟩ := exists_stand hfit hc hy
  have hphase : r'.phase = .loggingIn := by rwa [hstand] at hp
  have hserver : k'.place s = y.server := by rw [hstand]
  rw [drop_of_getElem? hy] at hcourse
  refine ⟨fuel', k', r', hquery, hphase, hserver, ?_, course_of_stand hcourse⟩
  rcases hfit' with ⟨-, hx⟩ | ⟨hasking, -⟩
  · exact hx
  · exact nomatch hphase.symm.trans hasking

/-- **A token that lasts is used at once.** -/
theorem used_of_course (hfit : r.Fits s k m) (hc : r.course? s now net fuel i k m = some c)
    (hy : c.sent[j]? = some y) (hp : y.phase = .loggingIn)
    (ha : (net (i + j) y.exchange).Grants t ttl) (hclock : now + ttl ≤ clockLimit)
    (hlasts : refreshWindow < ttl) : c.Uses s now r.query j y t := by
  obtain ⟨fuel', k', r', hquery, hphase, hserver, hx, hrest⟩ := exists_login hfit hc hy hp
  rw [receive_granted hphase (grant?_of_grants ha) hlasts hclock] at hrest
  have hhead := head_of_send hrest
  rw [List.head?_drop, hquery] at hhead
  refine ⟨{ k' with token := some ⟨t, now + ttl⟩ }, hserver, token?_granted hlasts, hx, ?_⟩
  rw [← hserver]
  exact hhead

/-- **A token that does not last is discarded.** -/
theorem discarded_of_course (hs : s.logsIn = true) (hfit : r.Fits s k m)
    (hc : r.course? s now net fuel i k m = some c) (hy : c.sent[j]? = some y)
    (hp : y.phase = .loggingIn) (ha : (net (i + j) y.exchange).Grants t ttl)
    (hclock : now + ttl ≤ clockLimit) (hlasts : ttl ≤ refreshWindow) : c.Discards s j y := by
  obtain ⟨fuel', k', r', -, hphase, hserver, hx, hrest⟩ := exists_login hfit hc hy hp
  rw [receive_brief hphase (grant?_of_grants ha) hclock hlasts] at hrest
  change Run.rounds? s now net fuel' _
    (Link.switch { k' with token := some ⟨t, now + ttl⟩ } s)
    { r' with last := some .noToken } = _ at hrest
  have hnone : (Link.switch { k' with token := some ⟨t, now + ttl⟩ } s).token? now = none :=
    token?_brief (k := k'.switch s) hlasts
  constructor
  · intro y' hy'
    rw [drop_of_getElem? hy'] at hrest
    have hfirst := first_of_rounds hrest
    rw [opening_of_no_token hs hnone, place_switch] at hfirst
    rw [hfirst, ← hserver]
    exact ⟨rfl, rfl⟩
  · intro hend
    rw [List.drop_eq_nil_of_le (List.getElem?_eq_none_iff.1 hend)] at hrest
    exact (result_of_rounds hrest).2

/-- **What becomes of the tokens that a query is granted.**  Without a token that may be used it
logs in first.  Each token that it is granted is used at once if it lasts longer than tokens are
left alone before they expire; else the login has failed. -/
theorem grants_of_query (s : Settings) (now : Nat) (net : Network) (k : Link) (q : Query)
    (hs : s.logsIn = true) (hn : 0 < s.servers.length) (hk : k.token? now = none) :
    ∃ c, k.ComesTo s now net q c ∧
      c.sent.head? = some ⟨k.place s, .loggingIn, loginExchange s k⟩ ∧
      ∀ j y t ttl, c.sent[j]? = some y → y.phase = .loggingIn →
        (net j y.exchange).Grants t ttl → now + ttl ≤ clockLimit →
          (refreshWindow < ttl → c.Uses s now q j y t) ∧
          (ttl ≤ refreshWindow → c.Discards s j y) := by
  obtain ⟨c, hc⟩ := exists_course s now net k q
  have hfit := fits_next s k now (Run.new s q)
  have hquery : (Run.next s k now (Run.new s q)).1.query = q := query_next ..
  refine ⟨c, comesTo_of_course hc, ?_, ?_⟩
  · obtain ⟨n, hlen⟩ := Nat.exists_eq_add_of_lt hn
    have hattempts : (Run.new s q).attempts = n + 1 := by
      show s.servers.length = n + 1
      omega
    unfold Link.course? at hc
    rw [rounds_of_attempts hattempts] at hc
    have hhead := head_of_send hc
    rwa [opening_of_no_token hs hk] at hhead
  · intro j y t ttl hy hp ha hclock
    rw [← Nat.zero_add j] at ha
    refine ⟨fun hlasts => ?_, discarded_of_course hs hfit hc hy hp ha hclock⟩
    rw [← hquery]
    exact used_of_course hfit hc hy hp ha hclock hlasts

/-! ### Two servers -/

/-- Servers that answer logins with a text, and accept all queries. -/
def accepting (login : String) : Network := fun _ x =>
  if x.form ≠ [] then .reply 200 (some login) else .reply 200 (some "ok")

def loginFor (ttl : String) : String :=
  "\x7b\"accessToken\":\"t\",\"tokenTtl\":" ++ ttl ++ "\x7d"

theorem grants_300 : (Answer.reply 200 (some (loginFor "300"))).Grants "t" 300 :=
  ⟨200, _, .object [("accessToken", .text "t"), ("tokenTtl", .number (.int 300))], rfl, rfl,
    rfl, rfl, rfl⟩

theorem grants_301 : (Answer.reply 200 (some (loginFor "301"))).Grants "t" 301 :=
  ⟨200, _, .object [("accessToken", .text "t"), ("tokenTtl", .number (.int 301))], rfl, rfl,
    rfl, rfl, rfl⟩

/-- A token that lasts a second longer is used. -/
theorem grants_of_lasting_token :
    ∃ c, Link.new.ComesTo twoServers 0 (accepting (loginFor "301"))
        ⟨"GET", "/v1/ns/instance", []⟩ c ∧
      c.Uses twoServers 0 ⟨"GET", "/v1/ns/instance", []⟩ 0
        ⟨0, .loggingIn, loginExchange twoServers .new⟩ "t" := by
  obtain ⟨c, hc, hfirst, hall⟩ := grants_of_query twoServers 0 (accepting (loginFor "301")) .new
    ⟨"GET", "/v1/ns/instance", []⟩ (by decide) (by decide) rfl
  rw [List.head?_eq_getElem?] at hfirst
  have hgrants : (accepting (loginFor "301") 0 (loginExchange twoServers .new)).Grants "t" 301 :=
    grants_301
  exact ⟨c, hc, (hall 0 _ "t" 301 hfirst rfl hgrants (by decide)).1 (by decide)⟩

/-- **Both servers grant a token**, and the query fails for want of one. -/
theorem discarded_of_short_token :
    (Answer.reply 200 (some (loginFor "300"))).Grants "t" 300 ∧
    ∃ c, Link.new.ComesTo twoServers 0 (accepting (loginFor "300"))
      ⟨"GET", "/v1/ns/instance", []⟩ c ∧
      (∀ y ∈ c.sent, y.phase = .loggingIn) ∧ c.result = some (.error .noToken) := by
  have hcourse : (Link.new.course? twoServers 0 (accepting (loginFor "300"))
      ⟨"GET", "/v1/ns/instance", []⟩).map
        (fun c => (c.sent.all fun y => y.phase == .loggingIn, c.result)) =
          some (true, some (.error .noToken)) := by
    decide +kernel
  obtain ⟨c, hc, hall⟩ := Option.map_eq_some_iff.1 hcourse
  obtain ⟨hlogins, hres⟩ := Prod.mk.inj hall
  refine ⟨grants_300, c, comesTo_of_course hc, fun y hy => ?_, hres⟩
  exact eq_of_beq (List.all_eq_true.1 hlogins y hy)

end Discovery.Naming.Remote
