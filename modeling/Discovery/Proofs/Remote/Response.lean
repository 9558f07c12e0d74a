import Discovery.Proofs.Remote.Failover

/-!
# What a request does with an answer

A request waits for the answer to a login or to its query.  `Response` lists what it does with the
answer: it ends, it asks with the token that it was granted, or it begins another round, at the next
server or after a login at the same one.

* `response_receive`: a request does one of these.
* `exists_course`: a query always comes to an end, after as many messages as it may send.
* `exists_stand`: each message of a course was sent by a request that stood there, and what follows
  it is what became of this request.
-/

namespace Discovery.Naming.Remote

variable {s : Settings} {now : Nat} {net : Network} {fuel i j : Nat} {k : Link} {r : Run}
  {m : Move} {q : Query} {c : Course} {a : Answer} {x : Exchange} {y : Sent} {t : String}
  {ttl : Nat} {why : Trouble}

/-! ### What is sent -/

/-- What a request sends is what it waits for: a login, or its query. -/
def Run.Fits (s : Settings) (k : Link) (r : Run) : Move → Prop
  | .send x => (r.phase = .loggingIn ∧ x = loginExchange s k) ∨
      r.phase = .asking ∧ ∃ token, x = queryExchange s k r.query token
  | _ => True

theorem fits_next (s : Settings) (k : Link) (now : Nat) (r : Run) :
    (r.next s k now).1.Fits s k (r.next s k now).2 := by
  cases ha : r.attempts with
  | zero =>
    rw [next_of_no_attempts ha]
    trivial
  | succ n =>
    rw [next_of_attempts ha]
    unfold Link.opening
    split
    · exact .inr ⟨rfl, none, rfl⟩
    · split
      · next token _ => exact .inr ⟨rfl, some token, rfl⟩
      · exact .inl ⟨rfl, rfl⟩

theorem query_next (s : Settings) (k : Link) (now : Nat) (r : Run) :
    (r.next s k now).1.query = r.query := by
  cases ha : r.attempts with
  | zero => rw [next_of_no_attempts ha]
  | succ n => rw [next_of_attempts ha]

/-! ### What a request does with an answer -/

/-- Whether an answer says that a token is not accepted. -/
def Answer.rejects : Answer → Bool
  | .reply status _ => isRejection status
  | .dropped => false

/-- A request that has been rejected: the first time it gets another try. -/
def Run.rejected (r : Run) (status : Nat) : Run :=
  { r with
    last := some (.rejected status)
    relogin := false
    attempts := r.attempts + r.relogin.toNat }

/-- **What a request does with an answer.** -/
inductive Response (s : Settings) (now : Nat) (k : Link) (r : Run) (a : Answer) : Received → Prop
  /-- The query has been answered. -/
  | answered {res : Except Trouble String} {log : List LogLine} (phase : r.phase = .asking)
      (heard : a ≠ .dropped) (kept : s.logsIn = true → a.rejects = false) :
      Response s now k r a ⟨k, r, .finished res, log⟩
  /-- The clock gives out over a token. -/
  | endless {t : String} {ttl : Nat} (phase : r.phase = .loggingIn)
      (grant : a.grant? = some (t, ttl)) (clock : clockLimit < now + ttl) :
      Response s now k r a ⟨k, r, .panicked, []⟩
  /-- A token has been granted that may be used. -/
  | granted {t : String} {ttl : Nat} (phase : r.phase = .loggingIn)
      (grant : a.grant? = some (t, ttl)) (clock : now + ttl ≤ clockLimit)
      (lasts : refreshWindow < ttl) :
      Response s now k r a ⟨{ k with token := some ⟨t, now + ttl⟩ }, { r with phase := .asking },
        .send (queryExchange s k r.query (some t)), []⟩
  /-- A token has been granted that may not be used any more. -/
  | brief {t : String} {ttl : Nat} (phase : r.phase = .loggingIn)
      (grant : a.grant? = some (t, ttl)) (clock : now + ttl ≤ clockLimit)
      (lasts : ttl ≤ refreshWindow) :
      Response s now k r a
        (r.failOver s { k with token := some ⟨t, now + ttl⟩ } now "Login" .noToken)
  /-- No token has been granted. -/
  | refused {why : Trouble} (phase : r.phase = .loggingIn) (grant : a.grant? = none) :
      Response s now k r a (r.failOver s k now "Login" why)
  /-- The query has been lost. -/
  | lost (phase : r.phase = .asking) (dropped : a = .dropped) :
      Response s now k r a (r.failOver s k now "Request" .transport)
  /-- The token has been rejected. -/
  | rejected {status : Nat} {body : Option String} (phase : r.phase = .asking)
      (logsIn : s.logsIn = true) (answer : a = .reply status body) (rejects : a.rejects = true) :
      Response s now k r a ⟨{ k with token := none },
        ((r.rejected status).next s { k with token := none } now).1,
        ((r.rejected status).next s { k with token := none } now).2,
        [warning "Token rejected, re-authenticating..."]⟩

/-- A token that may not be used any more is no token, and the login has failed. -/
theorem receive_brief (hp : r.phase = .loggingIn) (ha : a.grant? = some (t, ttl))
    (hclock : now + ttl ≤ clockLimit) (hlasts : ttl ≤ refreshWindow) :
    r.receive s k now a =
      r.failOver s { k with token := some ⟨t, now + ttl⟩ } now "Login" .noToken := by
  rw [receive_of_grant hp ha, if_neg (Nat.not_lt.2 hclock), Run.fetched, token?_brief hlasts]

theorem receive_refused (s : Settings) (now : Nat) (k : Link) (hp : r.phase = .loggingIn)
    (ha : a.grant? = none) :
    ∃ why, r.receive s k now a = r.failOver s k now "Login" why := by
  obtain ⟨why, hwhy⟩ := exists_trouble_of_no_grant ha
  refine ⟨why, ?_⟩
  rw [receive_of_loggingIn hp, loggedIn_eq, hwhy]

theorem response_answered (s : Settings) (now : Nat) (k : Link) (r : Run) (a : Answer)
    (hp : r.phase = .asking) : Response s now k r a (r.answered s k now a) := by
  unfold Run.answered
  cases a with
  | dropped => exact .lost hp rfl
  | reply status body =>
    dsimp only
    by_cases hrej : (s.logsIn && isRejection status) = true
    · rw [if_pos hrej]
      obtain ⟨hs, hstatus⟩ := Bool.and_eq_true_iff.1 hrej
      obtain ⟨query, attempts, relogin, last, phase⟩ := r
      cases relogin with
      | true => exact .rejected hp hs rfl hstatus
      | false => exact .rejected hp hs rfl hstatus
    · rw [if_neg hrej]
      have hkept : s.logsIn = true → isRejection status = false := by
        intro hs
        rw [hs, Bool.true_and] at hrej
        exact Bool.eq_false_iff.2 hrej
      cases body with
      | none => exact .answered hp nofun hkept
      | some b =>
        dsimp only
        split
        · exact .answered hp nofun hkept
        · exact .answered hp nofun hkept

/-- **A request does one of these things with an answer.** -/
theorem response_receive (s : Settings) (now : Nat) (k : Link) (r : Run) (a : Answer)
    (hp : r.phase = .loggingIn ∨ r.phase = .asking) :
    Response s now k r a (r.receive s k now a) := by
  rcases hp with hp | hp
  · cases hg : a.grant? with
    | none =>
      obtain ⟨why, hwhy⟩ := receive_refused s now k hp hg
      rw [hwhy]
      exact .refused hp hg
    | some g =>
      obtain ⟨t, ttl⟩ := g
      by_cases hclock : now + ttl ≤ clockLimit
      · by_cases hlasts : refreshWindow < ttl
        · rw [receive_granted hp hg hlasts hclock]
          exact .granted hp hg hclock hlasts
        · rw [receive_brief hp hg hclock (Nat.le_of_not_lt hlasts)]
          exact .brief hp hg hclock (Nat.le_of_not_lt hlasts)
      · rw [receive_endless hp hg (Nat.lt_of_not_le hclock)]
        exact .endless hp hg (Nat.lt_of_not_le hclock)
  · have hans : r.receive s k now a = r.answered s k now a := by
      unfold Run.receive
      rw [hp]
    rw [hans]
    exact response_answered s now k r a hp

theorem fits_receive (now : Nat) (hfit : r.Fits s k (.send x)) (a : Answer) :
    (r.receive s k now a).run.Fits s (r.receive s k now a).link (r.receive s k now a).move ∧
      (r.receive s k now a).run.query = r.query := by
  have hgot := response_receive s now k r a (hfit.imp And.left And.left)
  generalize r.receive s k now a = got at hgot ⊢
  cases hgot with
  | answered => exact ⟨trivial, rfl⟩
  | endless => exact ⟨trivial, rfl⟩
  | @granted t => exact ⟨.inr ⟨rfl, some t, rfl⟩, rfl⟩
  | brief | refused | lost | rejected => exact ⟨fits_next .., query_next ..⟩

/-! ### Courses come to an end -/

/-- How many more rounds a request may begin. -/
def Run.rounds (r : Run) : Nat :=
  r.attempts + r.relogin.toNat

/-- A bound on the messages that a request still sends, with the one that it is about to send. -/
def Run.left (r : Run) : Move → Nat
  | .send _ => 2 * r.rounds + if r.phase = .loggingIn then 2 else 1
  | _ => 0

theorem rounds_rejected (r : Run) (status : Nat) : (r.rejected status).rounds = r.rounds :=
  rfl

theorem left_next (s : Settings) (k : Link) (now : Nat) (r : Run) :
    (r.next s k now).1.left (r.next s k now).2 ≤ 2 * r.rounds := by
  cases ha : r.attempts with
  | zero =>
    rw [next_of_no_attempts ha]
    exact Nat.zero_le _
  | succ n =>
    rw [next_of_attempts ha]
    have hphase : (if (k.opening s now r.query).1 = .loggingIn then 2 else 1) ≤ 2 := by
      split <;> omega
    unfold Run.left Run.rounds
    dsimp only
    omega

theorem Run.lt_left_send (r : Run) (x : Exchange) : 2 * r.rounds < r.left (.send x) := by
  unfold Run.left
  dsimp only
  split <;> omega

theorem left_receive (now : Nat) (hfit : r.Fits s k (.send x)) (a : Answer) :
    (r.receive s k now a).run.left (r.receive s k now a).move < r.left (.send x) := by
  have hsend := r.lt_left_send x
  have hnext : ∀ (k' : Link) (r' : Run), r'.rounds = r.rounds →
      (r'.next s k' now).1.left (r'.next s k' now).2 < r.left (.send x) := by
    intro k' r' hrounds
    exact (hrounds ▸ left_next s k' now r').trans_lt hsend
  have hgot := response_receive s now k r a (hfit.imp And.left And.left)
  generalize r.receive s k now a = got at hgot ⊢
  cases hgot with
  | answered | endless => exact (Nat.zero_le _).trans_lt hsend
  | granted phase =>
    show 2 * r.rounds + 1 < _
    unfold Run.left
    dsimp only
    rw [if_pos phase]
    exact Nat.lt_succ_self _
  | brief | refused | lost => exact hnext _ _ rfl
  | rejected => exact hnext _ _ (rounds_rejected ..)

theorem exists_course_of_left (hfit : r.Fits s k m) (hleft : r.left m ≤ fuel) :
    ∃ c, r.course? s now net fuel i k m = some c := by
  induction fuel generalizing i k r m with
  | zero =>
    cases m with
    | finished res => exact ⟨_, rfl⟩
    | panicked => exact ⟨_, rfl⟩
    | send x =>
      have hsend := r.lt_left_send x
      omega
  | succ fuel ih =>
    cases m with
    | finished res => exact ⟨_, rfl⟩
    | panicked => exact ⟨_, rfl⟩
    | send x =>
      have hlt := left_receive now hfit (net i x)
      obtain ⟨c, hc⟩ := ih (i := i + 1) (fits_receive now hfit (net i x)).1 (by omega)
      exact ⟨_, Option.map_eq_some_iff.2 ⟨c, hc, rfl⟩⟩

/-- **A query always comes to an end.** -/
theorem exists_course (s : Settings) (now : Nat) (net : Network) (k : Link) (q : Query) :
    ∃ c, k.course? s now net q = some c := by
  refine exists_course_of_left (fits_next ..) ((left_next ..).trans ?_)
  have hle := Bool.toNat_le s.logsIn
  show 2 * (s.servers.length + s.logsIn.toNat) ≤ 2 * s.servers.length + 2
  omega

/-! ### What follows a message -/

theorem nil_or_send_of_course (hc : r.course? s now net fuel i k m = some c) :
    c.sent = [] ∨ ∃ (fuel' : Nat) (x : Exchange) (d : Course), fuel = fuel' + 1 ∧ m = .send x ∧
      c = d.behind [⟨k.place s, r.phase, x⟩] ∧
      (r.receive s k now (net i x)).run.course? s now net fuel' (i + 1)
        (r.receive s k now (net i x)).link (r.receive s k now (net i x)).move = some d := by
  cases m with
  | finished res =>
    cases fuel <;> cases hc <;> exact .inl rfl
  | panicked =>
    cases fuel <;> cases hc <;> exact .inl rfl
  | send x =>
    cases fuel with
    | zero => exact nomatch hc
    | succ fuel =>
      obtain ⟨d, hd, rfl⟩ := Option.map_eq_some_iff.1 hc
      exact .inr ⟨fuel, x, d, rfl, rfl, rfl, hd⟩

theorem send_of_course (hc : r.course? s now net fuel i k m = some c) (hy : c.sent[j]? = some y) :
    ∃ (fuel' : Nat) (x : Exchange) (d : Course), fuel = fuel' + 1 ∧ m = .send x ∧
      c = d.behind [⟨k.place s, r.phase, x⟩] ∧
      (r.receive s k now (net i x)).run.course? s now net fuel' (i + 1)
        (r.receive s k now (net i x)).link (r.receive s k now (net i x)).move = some d := by
  refine (nil_or_send_of_course hc).resolve_left fun hnil => ?_
  rw [hnil] at hy
  exact nomatch hy

/-- **Each message of a course was sent by a request that stood there**, and what follows it is what
became of that request. -/
theorem exists_stand (hfit : r.Fits s k m) (hc : r.course? s now net fuel i k m = some c)
    (hy : c.sent[j]? = some y) :
    ∃ (fuel' : Nat) (k' : Link) (r' : Run), r'.query = r.query ∧ r'.Fits s k' (.send y.exchange) ∧
      y = ⟨k'.place s, r'.phase, y.exchange⟩ ∧
      r'.course? s now net (fuel' + 1) (i + j) k' (.send y.exchange) =
        some ⟨c.sent.drop j, c.link, c.result⟩ := by
  induction j generalizing fuel i k r m c with
  | zero =>
    obtain ⟨fuel', x, d, rfl, rfl, rfl, -⟩ := send_of_course hc hy
    obtain rfl := Option.some.inj hy
    exact ⟨fuel', k, r, rfl, hfit, rfl, hc⟩
  | succ j ih =>
    obtain ⟨_, x, d, rfl, rfl, rfl, hd⟩ := send_of_course hc hy
    obtain ⟨hfit', hquery⟩ := fits_receive now hfit (net i x)
    obtain ⟨fuel', k', r', hq, hf, hstand, hcourse⟩ := ih hfit' hd hy
    refine ⟨fuel', k', r', hq.trans hquery, hf, hstand, ?_⟩
    rw [Nat.add_right_comm] at hcourse
    exact hcourse

theorem course_of_stand {b : List Sent} {l : Link} {res : Option (Except Trouble String)}
    (hc : r.course? s now net (fuel + 1) i k (.send x) = some ⟨y :: b, l, res⟩) :
    (r.receive s k now (net i x)).run.course? s now net fuel (i + 1)
      (r.receive s k now (net i x)).link (r.receive s k now (net i x)).move = some ⟨b, l, res⟩ := by
  obtain ⟨d, hd, hbehind⟩ := Option.map_eq_some_iff.1 hc
  obtain ⟨sent, l', res'⟩ := d
  obtain ⟨hsent, rfl, rfl⟩ := Course.mk.inj hbehind
  obtain ⟨rfl, rfl⟩ := List.cons.inj hsent
  exact hd

theorem first_of_rounds {b : List Sent} {l : Link} {res : Option (Except Trouble String)}
    (hc : r.rounds? s now net fuel i k = some ⟨y :: b, l, res⟩) :
    y = ⟨k.place s, (k.opening s now r.query).1, (k.opening s now r.query).2⟩ := by
  cases ha : r.attempts with
  | zero =>
    rw [rounds_of_no_attempts ha] at hc
    exact nomatch hc
  | succ n =>
    rw [rounds_of_attempts ha] at hc
    cases fuel with
    | zero => exact nomatch hc
    | succ fuel =>
      obtain ⟨d, _, hbehind⟩ := Option.map_eq_some_iff.1 hc
      exact (List.cons.inj (Course.mk.inj hbehind).1).1.symm

theorem result_of_rounds {l : Link} {res : Option (Except Trouble String)}
    (hc : r.rounds? s now net fuel i k = some ⟨[], l, res⟩) :
    r.attempts = 0 ∧ res = some (.error (r.last.getD .noServer)) := by
  cases ha : r.attempts with
  | zero =>
    rw [rounds_of_no_attempts ha] at hc
    exact ⟨rfl, (Course.mk.inj (Option.some.inj hc)).2.2.symm⟩
  | succ n =>
    rw [rounds_of_attempts ha] at hc
    cases fuel with
    | zero => exact nomatch hc
    | succ fuel =>
      obtain ⟨d, _, hbehind⟩ := Option.map_eq_some_iff.1 hc
      exact nomatch (Course.mk.inj hbehind).1

theorem drop_of_getElem? {α : Type} {l : List α} {z : α} (h : l[j]? = some z) :
    l.drop j = z :: l.drop (j + 1) := by
  obtain ⟨hj, rfl⟩ := List.getElem?_eq_some_iff.1 h
  exact List.drop_eq_getElem_cons hj

end Discovery.Naming.Remote
