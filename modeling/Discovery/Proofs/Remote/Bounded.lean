import Discovery.Naming.Remote.Query
import Discovery.Proofs.Remote.Steps

/-!
# Requests are bounded

Whatever servers answer, and whatever the other requests of a client do to the current server and
the token between any two steps of a request, the request ends: it begins a round for each server
and, if it logs in, one more, since only the first rejection of a token gives another one.

* `Bounded`: what holds of every request.
* `bounded_of_moments`: it holds whatever the request meets.
* `ended_of_endless_token`: a request without a result.
-/

namespace Discovery.Naming.Remote

variable {s : Settings} {m : Moment} {t : Trip} {r : Run} {q : Query} {w : Nat → Moment}
  {x : Exchange} {i : Nat} {why : Trouble} {res : Option (Except Trouble String)} {o : Onward}

/-! ### What a request spends -/

def Trip.begins (t : Trip) : Bool :=
  match t.point with
  | .round => t.run.attempts != 0
  | _ => false

def Trip.sendsLogin (t : Trip) : Bool :=
  match t.point with
  | .login => true
  | _ => false

def Trip.sendsQuery (t : Trip) : Bool :=
  match t.point with
  | .ask _ => true
  | _ => false

def Trip.goesOn (t : Trip) : Bool :=
  match t.point with
  | .ended _ => false
  | _ => true

/-- How many logins the round at a point may still send. -/
def Point.logins : Point → Nat
  | .login => 1
  | _ => 0

def Point.queries : Point → Nat
  | .login | .loggingIn _ | .keep _ _ | .fetch | .ask _ => 1
  | _ => 0

/-- How many steps there are at most from a point to the end of the round. -/
def Point.steps : Point → Nat
  | .ended _ => 0
  | .round => 1
  | .turn | .forget => 2
  | .asking _ => 3
  | .ask _ => 4
  | .fetch => 5
  | .keep _ _ => 6
  | .loggingIn _ => 7
  | .login => 8

theorem begins_of_attempts {n : Nat} (h : r.attempts = n + 1) :
    (⟨r, .round⟩ : Trip).begins = true := by
  simp [Trip.begins, h]

theorem begins_of_no_attempts (h : r.attempts = 0) : (⟨r, .round⟩ : Trip).begins = false := by
  simp [Trip.begins, h]

/-- **A round is begun at the cost of one that is left.** -/
theorem Stride.rounds (h : Stride s m t o) :
    o.trip.run.rounds + t.begins.toNat = t.run.rounds := by
  cases h with
  | spent attempts => rw [begins_of_no_attempts attempts]; rfl
  | @entered r n attempts | @unknown r n attempts =>
    rw [begins_of_attempts attempts]
    show n + r.relogin.toNat + 1 = r.attempts + r.relogin.toNat
    rw [attempts, Nat.add_right_comm]
  | _ => rfl

/-- **What the rounds cost is bounded**, if what is spent at a point belongs to its round, and a
round costs `c`. -/
theorem count_le (cost : Point → Nat) {p : Trip → Bool} {c : Nat}
    (h : ∀ (m : Moment) (t : Trip),
      cost (t.step s m).trip.point + (p t).toNat ≤ cost t.point + c * t.begins.toNat)
    (w : Nat → Moment) (q : Query) (i : Nat) :
    Nat.count (fun j => p ((Trip.new s q).after s w j) = true) i ≤
      cost .round + c * (s.servers.length + s.logsIn.toNat) := by
  have hstep : ∀ (m : Moment) (t : Trip), cost (t.step s m).trip.point +
      c * (t.step s m).trip.run.rounds + (p t).toNat ≤ cost t.point + c * t.run.rounds := by
    intro m t
    have hcost := h m t
    rw [← (stride_step s m t).rounds, Nat.mul_add]
    omega
  exact (Nat.le_add_right _ _).trans
    (count_add_left_le (fun t => cost t.point + c * t.run.rounds) hstep w (.new s q) i)

theorem Stride.logins (h : Stride s m t o) :
    o.trip.point.logins + t.sendsLogin.toNat ≤ t.point.logins + 1 * t.begins.toNat := by
  cases h with
  | entered attempts | unknown attempts =>
    rw [begins_of_attempts attempts]
    simp [Point.logins, Trip.sendsLogin]
  | _ => simp [Point.logins, Trip.sendsLogin, Run.setBack]

theorem Stride.queries (h : Stride s m t o) :
    o.trip.point.queries + t.sendsQuery.toNat ≤ t.point.queries + 1 * t.begins.toNat := by
  cases h with
  | entered attempts | unknown attempts =>
    rw [begins_of_attempts attempts]
    exact Nat.le_refl _
  | _ => simp [Point.queries, Trip.sendsQuery, Run.setBack]

theorem Stride.steps (h : Stride s m t o) :
    o.trip.point.steps + t.goesOn.toNat ≤ t.point.steps + 8 * t.begins.toNat := by
  cases h with
  | entered attempts | unknown attempts =>
    rw [begins_of_attempts attempts]
    simp [Point.steps, Trip.goesOn]
  | _ => simp [Point.steps, Trip.goesOn, Trip.begins, Run.setBack]

/-! ### How a request ends -/

theorem after_of_ended {i j : Nat} (h : (t.after s w i).point = .ended res) (hle : i ≤ j) :
    t.after s w j = t.after s w i := by
  induction j, hle using Nat.le_induction with
  | base => rfl
  | succ j hle ih =>
    rw [Trip.after, ih]
    unfold Trip.step
    rw [h]

theorem goesOn_eq_false_iff : t.goesOn = false ↔ ∃ res, t.point = .ended res := by
  unfold Trip.goesOn
  cases t.point <;> simp

/-- **A request ends**, after as many steps as its rounds may take. -/
theorem exists_ended (w : Nat → Moment) (q : Query) :
    ∃ i ≤ 8 * (s.servers.length + s.logsIn.toNat) + 1, ∃ res,
      ((Trip.new s q).after s w i).point = .ended res := by
  by_contra hnever
  have hgoes : ∀ i < 8 * (s.servers.length + s.logsIn.toNat) + 2,
      ((Trip.new s q).after s w i).goesOn = true := by
    intro i hi
    rw [← Bool.not_eq_false, goesOn_eq_false_iff]
    rintro ⟨res, hres⟩
    exact hnever ⟨i, by omega, res, hres⟩
  have hcount := count_le Point.steps (fun m t => (stride_step s m t).steps) w q
    (8 * (s.servers.length + s.logsIn.toNat) + 2)
  rw [Nat.count_iff_forall.2 hgoes, Point.steps] at hcount
  omega

/-- The trouble over which the login or the query of a round has failed. -/
def Trip.setback? (m : Moment) (t : Trip) : Option Trouble :=
  match t.point with
  | .loggingIn x =>
    match (m.answer x).grantOrTrouble with
    | .error why => some why
    | .ok _ => none
  | .fetch => if m.link.token? m.now = none then some .noToken else none
  | .asking x => if m.answer x = .dropped then some .transport else none
  | _ => none

/-- What an answer to a query means: a body, or the trouble. -/
def Answer.bodyOrTrouble (s : Settings) : Answer → Except Trouble String
  | .dropped => .error .transport
  | .reply status body =>
    if s.logsIn && isRejection status then .error (.rejected status)
    else
      match body with
      | none => .error .transport
      | some b => if isSuccess status then .ok b else .error (.status status b)

def Trip.trouble? (s : Settings) (m : Moment) (t : Trip) : Option Trouble :=
  match t.point with
  | .asking x =>
    match (m.answer x).bodyOrTrouble s with
    | .error why => some why
    | .ok _ => none
  | _ => t.setback? m

/-- **The client turns to the next server exactly after a login or a query has failed.** -/
theorem Stride.turn_iff (h : Stride s m t o) :
    o.trip.point = .turn ↔ (t.setback? m).isSome = true := by
  cases h with
  | granted grant => simp [Trip.setback?, grant]
  | refused grant => simp [Trip.setback?, grant, Run.setBack]
  | found there => simp [Trip.setback?, there]
  | gone absent => simp [Trip.setback?, absent, Run.setBack]
  | lost answer => simp [Trip.setback?, answer, Run.setBack]
  | rejected answer | unreadable answer | accepted answer | failed answer =>
    simp [Trip.setback?, answer]
  | _ => simp [Trip.setback?]

theorem Stride.current (h : Stride s m t o) :
    (t.point = .turn → o.link = m.link.switch s) ∧
      (t.point ≠ .turn → o.link.current = m.link.current) := by
  cases h with
  | turned => exact ⟨fun _ => rfl, fun h => absurd rfl h⟩
  | _ => exact ⟨nofun, fun _ => rfl⟩

/-- **Between two rounds there is a trouble**, and the request keeps it in mind. -/
theorem Stride.trouble (h : Stride s m t o)
    (hpoint : o.trip.point = .turn ∨ o.trip.point = .forget) :
    ∃ why, t.trouble? s m = some why ∧ o.trip.run.last = some why := by
  cases h with
  | @refused _ _ why grant => exact ⟨why, by simp [Trip.trouble?, Trip.setback?, grant], rfl⟩
  | gone absent => exact ⟨.noToken, by simp [Trip.trouble?, Trip.setback?, absent], rfl⟩
  | lost answer =>
    exact ⟨.transport, by simp [Trip.trouble?, Answer.bodyOrTrouble, answer], rfl⟩
  | @rejected _ _ status _ answer rejects =>
    refine ⟨.rejected status, ?_, rfl⟩
    simp only [Trip.trouble?, Answer.bodyOrTrouble, answer, rejects, if_true]
  | _ => simp at hpoint

/-- A round follows the switch to the next server, or a rejection. -/
theorem Stride.before_round (h : Stride s m t o) (hround : o.trip.point = .round) :
    (t.point = .turn ∨ t.point = .forget) ∧ o.trip.run = t.run := by
  cases h with
  | turned => exact ⟨.inl rfl, rfl⟩
  | forgotten => exact ⟨.inr rfl, rfl⟩
  | _ => exact nomatch hround

/-- **How a request ends with an error**: no round is left, or the last one is over. -/
theorem Stride.error (h : Stride s m t o) (hgoes : t.goesOn = true)
    (herror : o.trip.point = .ended (some (.error why))) :
    (t.point = .round ∧ t.run.attempts = 0 ∧ why = t.run.last.getD .noServer) ∨
      t.trouble? s m = some why := by
  cases h with
  | spent attempts => cases herror; exact .inl ⟨rfl, attempts, rfl⟩
  | unreadable answer accepts =>
    cases herror
    exact .inr (by simp [Trip.trouble?, Answer.bodyOrTrouble, answer, accepts])
  | failed answer accepts failure =>
    cases herror
    exact .inr (by simp [Trip.trouble?, Answer.bodyOrTrouble, answer, accepts, failure])
  | rest => exact nomatch hgoes
  | _ => exact nomatch herror

theorem Stride.ok_iff {b : String} (h : Stride s m t o) (hgoes : t.goesOn = true) :
    o.trip.point = .ended (some (.ok b)) ↔
      ∃ x status, t.point = .asking x ∧ m.answer x = .reply status (some b) ∧
        isSuccess status = true := by
  cases h with
  | @accepted _ x status b' answer success =>
    constructor
    · intro hok
      cases hok
      exact ⟨x, status, rfl, answer, success⟩
    · rintro ⟨x', status', hx, hanswer, -⟩
      cases hx
      cases answer.symm.trans hanswer
      rfl
  | lost answer | unreadable answer =>
    refine ⟨nofun, ?_⟩
    rintro ⟨x, status, hx, hanswer, -⟩
    cases hx
    exact nomatch answer.symm.trans hanswer
  | rejected answer rejects =>
    refine ⟨nofun, ?_⟩
    rintro ⟨x, status, hx, hanswer, hsuccess⟩
    cases hx
    cases answer.symm.trans hanswer
    rw [isRejection_of_isSuccess hsuccess, Bool.and_false] at rejects
    exact nomatch rejects
  | failed answer accepts failure =>
    refine ⟨nofun, ?_⟩
    rintro ⟨x, status, hx, hanswer, hsuccess⟩
    cases hx
    cases answer.symm.trans hanswer
    exact nomatch failure.symm.trans hsuccess
  | rest => exact nomatch hgoes
  | _ => exact ⟨nofun, fun ⟨_, _, hx, _⟩ => nomatch hx⟩

theorem Stride.panic_iff (h : Stride s m t o) (hgoes : t.goesOn = true) :
    o.trip.point = .ended none ↔
      ∃ token ttl, t.point = .keep token ttl ∧ clockLimit < m.now + ttl := by
  cases h with
  | @endless _ token ttl clock => exact ⟨fun _ => ⟨token, ttl, rfl, clock⟩, fun _ => rfl⟩
  | kept clock =>
    refine ⟨nofun, ?_⟩
    rintro ⟨token, ttl, hpoint, hlate⟩
    cases hpoint
    omega
  | rest => exact nomatch hgoes
  | _ => exact ⟨nofun, fun ⟨_, _, hpoint, _⟩ => nomatch hpoint⟩

theorem Stride.ask (h : Stride s m t o) (hx : o.trip.point = .asking x) :
    ∃ token, t.point = .ask token ∧ x = queryExchange s m.link t.run.query token := by
  cases h with
  | @sent _ token => cases hx; exact ⟨token, rfl, rfl⟩
  | _ => exact nomatch hx

theorem Stride.query (h : Stride s m t o) : o.trip.run.query = t.run.query := by
  cases h <;> rfl

theorem query_after (w : Nat → Moment) (t : Trip) (i : Nat) :
    (t.after s w i).run.query = t.run.query := by
  induction i with
  | zero => rfl
  | succ i ih => exact (stride_step ..).query.trans ih

/-- **What a request waits for is its own query**, sent a step before. -/
theorem exists_ask_of_asking (w : Nat → Moment) (q : Query)
    (hx : ((Trip.new s q).after s w i).point = .asking x) :
    ∃ j token, i = j + 1 ∧ ((Trip.new s q).after s w j).point = .ask token ∧
      x = queryExchange s (w j).link q token := by
  cases i with
  | zero => exact nomatch hx
  | succ j =>
    obtain ⟨token, hpoint, hexchange⟩ := (stride_step ..).ask hx
    rw [query_after] at hexchange
    exact ⟨j, token, rfl, hpoint, hexchange⟩

/-! ### Bounded requests -/

/-- **What holds of a request** that stands at one point after the other and meets one moment after
the other. -/
structure Bounded (s : Settings) (q : Query) (w : Nat → Moment) (trip : Nat → Trip) : Prop where
  /-- It ends. -/
  ends : ∃ i ≤ 8 * (s.servers.length + 1) + 1, ∃ res, (trip i).point = .ended res
  /-- It comes to one thing only. -/
  stays : ∀ i j res, i ≤ j → (trip i).point = .ended res → (trip j).point = .ended res
  rounds : ∀ i, Nat.count (fun j => (trip j).begins = true) i ≤
    s.servers.length + s.logsIn.toNat
  logins : ∀ i, Nat.count (fun j => (trip j).sendsLogin = true) i ≤
    s.servers.length + s.logsIn.toNat
  queries : ∀ i, Nat.count (fun j => (trip j).sendsQuery = true) i ≤
    s.servers.length + s.logsIn.toNat
  /-- It turns to the next server exactly after a login or a query has failed. -/
  turns : ∀ i, (trip (i + 1)).point = .turn ↔ ((trip i).setback? (w i)).isSome = true
  /-- Turning to the next server is one switch, and else no step changes the current server. -/
  switches : ∀ i,
    ((trip i).point = .turn → ((trip i).step s (w i)).link = (w i).link.switch s) ∧
    ((trip i).point ≠ .turn → ((trip i).step s (w i)).link.current = (w i).link.current)
  /-- After a rejection it forgets the token, and begins another round if one is left. -/
  rejected : ∀ i x status body, (trip i).point = .asking x →
    (w i).answer x = .reply status body → s.logsIn = true → isRejection status = true →
    (trip (i + 1)).point = .forget ∧ (trip (i + 2)).point = .round
  /-- What it waits for is what comes back for its own query. -/
  asks : ∀ i x, (trip i).point = .asking x → ∃ j token, i = j + 1 ∧
    (trip j).point = .ask token ∧ x = queryExchange s (w j).link q token
  /-- It succeeds with the body of a successful reply to its query, and only so. -/
  succeeds : ∀ i b, (trip i).goesOn = true →
    ((trip (i + 1)).point = .ended (some (.ok b)) ↔ ∃ x status, (trip i).point = .asking x ∧
      (w i).answer x = .reply status (some b) ∧ isSuccess status = true)
  /-- A readable reply without success ends it, unless the token is rejected. -/
  fails : ∀ i x status b, (trip i).point = .asking x → (w i).answer x = .reply status (some b) →
    isSuccess status = false → (s.logsIn = true → isRejection status = false) →
    (trip (i + 1)).point = .ended (some (.error (.status status b)))
  /-- An error is the trouble of its last round. -/
  errs : ∀ i why, (trip i).goesOn = true →
    (trip (i + 1)).point = .ended (some (.error why)) →
    ∃ j ≤ i, (trip j).trouble? s (w j) = some why ∧
      ∀ l, j < l → l ≤ i → (trip l).begins = false
  /-- There is no result exactly if the clock cannot show when a token expires. -/
  lacks : ∀ i, (trip i).goesOn = true → ((trip (i + 1)).point = .ended none ↔
    ∃ token ttl, (trip i).point = .keep token ttl ∧ clockLimit < (w i).now + ttl)

theorem step_of_rejection {status : Nat} {body : Option String} (hx : t.point = .asking x)
    (ha : m.answer x = .reply status body) (hs : s.logsIn = true)
    (hrej : isRejection status = true) : (t.step s m).trip.point = .forget := by
  unfold Trip.step
  simp only [hx, ha, hs, hrej, Bool.and_self, if_true]

theorem round_of_forget (h : t.point = .forget) : (t.step s m).trip.point = .round := by
  unfold Trip.step
  rw [h]

theorem step_of_failure {status : Nat} {b : String} (hx : t.point = .asking x)
    (ha : m.answer x = .reply status (some b)) (hno : isSuccess status = false)
    (hkept : s.logsIn = true → isRejection status = false) :
    (t.step s m).trip.point = .ended (some (.error (.status status b))) := by
  have haccepts : (s.logsIn && isRejection status) = false := by
    rw [Bool.and_eq_false_imp]
    exact hkept
  unfold Trip.step
  simp only [hx, ha, hno, haccepts, Bool.false_eq_true, if_false]

/-- **An error is the trouble of the last round.** -/
theorem exists_trouble_of_error (hs : s.servers ≠ []) (w : Nat → Moment) (q : Query)
    (hgoes : ((Trip.new s q).after s w i).goesOn = true)
    (h : ((Trip.new s q).after s w (i + 1)).point = .ended (some (.error why))) :
    ∃ j ≤ i, ((Trip.new s q).after s w j).trouble? s (w j) = some why ∧
      ∀ l, j < l → l ≤ i → ((Trip.new s q).after s w l).begins = false := by
  rcases (stride_step ..).error hgoes h with ⟨hround, hattempts, rfl⟩ | htrouble
  · -- No round is left, so this is not the first one, and before it there was a trouble.
    cases i with
    | zero => exact absurd (List.length_eq_zero_iff.1 hattempts) hs
    | succ i =>
      obtain ⟨hpoint, hrun⟩ := (stride_step ..).before_round hround
      cases i with
      | zero => rcases hpoint with h | h <;> exact nomatch h
      | succ i =>
        obtain ⟨why, htrouble, hlast⟩ := (stride_step ..).trouble hpoint
        have hlast' : ((Trip.new s q).after s w (i + 1 + 1)).run.last = some why := by
          show (((Trip.new s q).after s w (i + 1)).step s (w (i + 1))).trip.run.last = some why
          rw [hrun]
          exact hlast
        refine ⟨i, by omega, ?_, fun l hl hle => ?_⟩
        · rw [hlast']
          exact htrouble
        · obtain rfl | rfl : l = i + 1 ∨ l = i + 1 + 1 := by omega
          · unfold Trip.begins
            rcases hpoint with h | h <;> rw [h]
          · unfold Trip.begins
            rw [hround, hattempts]
            rfl
  · exact ⟨i, Nat.le_refl i, htrouble, fun l hl hle => by omega⟩

/-- **A request is bounded whatever it meets**, and one that meets what it has left itself is one
that runs alone. -/
theorem bounded_of_moments (hs : s.servers ≠ []) (q : Query) :
    (∀ w : Nat → Moment, Bounded s q w ((Trip.new s q).after s w)) ∧
    ∀ (now : Nat) (net : Exchange → Answer) (k : Link), ∃ r,
      Reaches s now net ⟨.new s q, k, []⟩
        ⟨⟨r, .ended (k.run s now net q).result⟩, (k.run s now net q).link,
          (k.run s now net q).log⟩ := by
  refine ⟨fun w => ?_, fun now net k => reaches_run s now net k q⟩
  have hbound := Bool.toNat_le s.logsIn
  have hbegins : ∀ (m : Moment) (t : Trip), 0 + t.begins.toNat ≤ 0 + 1 * t.begins.toNat :=
    fun _ _ => by rw [Nat.one_mul]
  have hcost : ∀ {c : Nat}, c ≤ 0 + 1 * (s.servers.length + s.logsIn.toNat) →
      c ≤ s.servers.length + s.logsIn.toNat := fun h => by rwa [Nat.zero_add, Nat.one_mul] at h
  exact {
    ends := by
      obtain ⟨i, hi, hended⟩ := exists_ended (s := s) w q
      exact ⟨i, by omega, hended⟩
    stays := fun i j res hle h => by rw [after_of_ended h hle, h]
    rounds := fun i => hcost (count_le (fun _ => 0) hbegins w q i)
    logins := fun i => hcost (count_le Point.logins (fun m t => (stride_step s m t).logins) w q i)
    queries := fun i =>
      hcost (count_le Point.queries (fun m t => (stride_step s m t).queries) w q i)
    turns := fun i => (stride_step ..).turn_iff
    switches := fun i => (stride_step ..).current
    rejected := fun i x status body hx ha hlogs hrej =>
      have hforget := step_of_rejection hx ha hlogs hrej
      ⟨hforget, round_of_forget hforget⟩
    asks := fun i x hx => exists_ask_of_asking w q hx
    succeeds := fun i b hgoes => (stride_step ..).ok_iff hgoes
    fails := fun i x status b hx ha hno hkept => step_of_failure hx ha hno hkept
    errs := fun i why hgoes h => exists_trouble_of_error hs w q hgoes h
    lacks := fun i hgoes => (stride_step ..).panic_iff hgoes }

/-- The others put back the token that is forgotten, and switch to another server all the time;
no server accepts the token. -/
def meddled (i : Nat) : Moment :=
  ⟨⟨i, some ⟨"t", 1000⟩⟩, 0, fun _ => .reply 401 (some "")⟩

def lookUp : Query :=
  ⟨"GET", listPath, []⟩

/-- Two servers, and three rounds, the last of which ends with a rejection. -/
theorem bounded_of_meddled :
    twoServers.servers ≠ [] ∧
      Bounded twoServers lookUp meddled ((Trip.new twoServers lookUp).after twoServers meddled) ∧
      Nat.count (fun j => ((Trip.new twoServers lookUp).after twoServers meddled j).begins = true)
        12 = 3 ∧
      ((Trip.new twoServers lookUp).after twoServers meddled 13).point =
        .ended (some (.error (.rejected 401))) := by
  have hs : twoServers.servers ≠ [] := List.cons_ne_nil _ _
  exact ⟨hs, (bounded_of_moments hs lookUp).1 meddled, rfl, rfl⟩

/-- A server grants tokens that last longer than a clock can show. -/
def endless (_ : Nat) : Moment :=
  ⟨Link.new, 0, fun _ => .reply 200 (some endlessLogin)⟩

/-- **A request without a result**: the clock gives out over the token. -/
theorem ended_of_endless_token :
    ((Trip.new twoServers lookUp).after twoServers endless 4).point = .ended none ∧
      (Link.new.run twoServers 0 (fun _ => .reply 200 (some endlessLogin)) lookUp).result =
        none := by
  have hgrant : (Answer.reply 200 (some endlessLogin)).grantOrTrouble =
      .ok ("t", 18446744073709551615) := by
    decide +kernel
  have hkeep : ((Trip.new twoServers lookUp).after twoServers endless 3).point =
      .keep "t" 18446744073709551615 := by
    show (Trip.step twoServers (endless 2)
      ⟨_, .loggingIn (loginExchange twoServers Link.new)⟩).trip.point = _
    unfold Trip.step endless
    simp only [hgrant]
  have hclock : clockLimit < (endless 3).now + 18446744073709551615 := by
    decide
  have hgoes : ((Trip.new twoServers lookUp).after twoServers endless 3).goesOn = true := by
    unfold Trip.goesOn
    rw [hkeep]
  refine ⟨((stride_step ..).panic_iff hgoes).2 ⟨_, _, hkeep, hclock⟩,
    Option.isNone_iff_eq_none.1 ?_⟩
  decide +kernel

end Discovery.Naming.Remote
