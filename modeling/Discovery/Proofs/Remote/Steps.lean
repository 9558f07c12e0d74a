import Discovery.Proofs.Remote.Response
import Mathlib.Data.Nat.Count
import Mathlib.Logic.Relation

/-!
# The steps of a request among others

The requests of one client look at the current server and the token, and change them, one thing at
a time, and between two of these steps of one request the others may do anything.  So a request
goes on from `Point` to `Point`, and in between it meets whatever `Moment` there is: any link, any
time, and servers that answer anything.

* `Trip.step`: one step of a request.
* `Stride`: all that a step can do.
* `count_add_left_le`: what a request may still spend bounds how often it spends something.
* `reaches_run`: a request that meets what it has left is a request that runs alone.
-/

namespace Discovery.Naming.Remote

/-! ### Points and moments -/

/-- Where a request stands between two steps. -/
inductive Point where
  /-- A round is about to begin, if one is left. -/
  | round
  /-- The login is about to be sent. -/
  | login
  /-- The login has been sent. -/
  | loggingIn (x : Exchange)
  /-- A token has been granted and is about to be kept. -/
  | keep (token : String) (ttl : Nat)
  /-- The token has been kept.  Is it there, and may it be used? -/
  | fetch
  /-- The query is about to be sent. -/
  | ask (token : Option String)
  /-- The query has been sent. -/
  | asking (x : Exchange)
  /-- The client is about to turn to the next server. -/
  | turn
  /-- The token has been rejected and is about to be forgotten. -/
  | forget
  /-- The request is finished.  There is no result if the clock gave out. -/
  | ended (res : Option (Except Trouble String))

/-- What a request meets in a moment: what its client shares, the time, and what servers answer. -/
structure Moment where
  link : Link
  now : Nat
  answer : Exchange → Answer

/-- A request on its way. -/
structure Trip where
  run : Run
  point : Point

/-- What a step leads to. -/
structure Onward where
  trip : Trip
  link : Link
  log : List LogLine

def Trip.new (s : Settings) (q : Query) : Trip :=
  ⟨.new s q, .round⟩

def Link.entrance (k : Link) (s : Settings) (now : Nat) : Point :=
  if !s.logsIn then .ask none
  else
    match k.token? now with
    | some token => .ask (some token)
    | none => .login

/-- A round has come to nothing, and the next server is to be asked. -/
def Run.setBack (r : Run) (k : Link) (what : String) (why : Trouble) : Onward :=
  ⟨⟨{ r with last := some why }, .turn⟩, k,
    [warning (why.sentence (what ++ " failed: ") ", switching to next server")]⟩

/-- **One step of a request**: it looks at one thing that its client shares, changes one, or hears
what a server answers. -/
def Trip.step (s : Settings) (m : Moment) (t : Trip) : Onward :=
  match t.point with
  | .round =>
    match t.run.attempts with
    | 0 => ⟨⟨t.run, .ended (some (.error (t.run.last.getD .noServer)))⟩, m.link, []⟩
    | n + 1 => ⟨⟨{ t.run with attempts := n }, m.link.entrance s m.now⟩, m.link, []⟩
  | .login =>
    ⟨⟨{ t.run with phase := .loggingIn }, .loggingIn (loginExchange s m.link)⟩, m.link, []⟩
  | .loggingIn x =>
    match (m.answer x).grantOrTrouble with
    | .ok (token, ttl) => ⟨⟨t.run, .keep token ttl⟩, m.link, []⟩
    | .error why => t.run.setBack m.link "Login" why
  | .keep token ttl =>
    if clockLimit < m.now + ttl then ⟨⟨t.run, .ended none⟩, m.link, []⟩
    else ⟨⟨t.run, .fetch⟩, { m.link with token := some ⟨token, m.now + ttl⟩ }, []⟩
  | .fetch =>
    match m.link.token? m.now with
    | some token => ⟨⟨t.run, .ask (some token)⟩, m.link, []⟩
    | none => t.run.setBack m.link "Login" .noToken
  | .ask token =>
    ⟨⟨{ t.run with phase := .asking }, .asking (queryExchange s m.link t.run.query token)⟩, m.link,
      []⟩
  | .asking x =>
    match m.answer x with
    | .dropped => t.run.setBack m.link "Request" .transport
    | .reply status body =>
      if s.logsIn && isRejection status then
        ⟨⟨t.run.rejected status, .forget⟩, m.link,
          [warning "Token rejected, re-authenticating..."]⟩
      else
        match body with
        | none => ⟨⟨t.run, .ended (some (.error .transport))⟩, m.link, []⟩
        | some b =>
          if isSuccess status then ⟨⟨t.run, .ended (some (.ok b))⟩, m.link, []⟩
          else
            let why := Trouble.status status b
            ⟨⟨t.run, .ended (some (.error why))⟩, m.link, [⟨"ERROR", why.text, []⟩]⟩
  | .turn => ⟨⟨t.run, .round⟩, m.link.switch s, []⟩
  | .forget => ⟨⟨t.run, .round⟩, { m.link with token := none }, []⟩
  | .ended _ => ⟨t, m.link, []⟩

/-- Where a request stands after some steps, one in each moment. -/
def Trip.after (s : Settings) (w : Nat → Moment) (t : Trip) : Nat → Trip
  | 0 => t
  | i + 1 => ((t.after s w i).step s (w i)).trip

variable {s : Settings} {m : Moment} {t : Trip} {r : Run} {k : Link} {now : Nat}
  {net : Exchange → Answer} {x : Exchange} {log : List LogLine} {got : Onward}

/-! ### What a step can do -/

/-- **All that a step can do.** -/
inductive Stride (s : Settings) (m : Moment) : Trip → Onward → Prop
  /-- No round is left. -/
  | spent {r : Run} (attempts : r.attempts = 0) :
      Stride s m ⟨r, .round⟩ ⟨⟨r, .ended (some (.error (r.last.getD .noServer)))⟩, m.link, []⟩
  /-- A round begins, and no token is needed, or there is one. -/
  | entered {r : Run} {n : Nat} (attempts : r.attempts = n + 1) (token : Option String) :
      Stride s m ⟨r, .round⟩ ⟨⟨{ r with attempts := n }, .ask token⟩, m.link, []⟩
  /-- A round begins without a token. -/
  | unknown {r : Run} {n : Nat} (attempts : r.attempts = n + 1) :
      Stride s m ⟨r, .round⟩ ⟨⟨{ r with attempts := n }, .login⟩, m.link, []⟩
  | login {r : Run} :
      Stride s m ⟨r, .login⟩
        ⟨⟨{ r with phase := .loggingIn }, .loggingIn (loginExchange s m.link)⟩, m.link, []⟩
  | granted {r : Run} {x : Exchange} {token : String} {ttl : Nat}
      (grant : (m.answer x).grantOrTrouble = .ok (token, ttl)) :
      Stride s m ⟨r, .loggingIn x⟩ ⟨⟨r, .keep token ttl⟩, m.link, []⟩
  | refused {r : Run} {x : Exchange} {why : Trouble}
      (grant : (m.answer x).grantOrTrouble = .error why) :
      Stride s m ⟨r, .loggingIn x⟩ (r.setBack m.link "Login" why)
  /-- The clock gives out over a token. -/
  | endless {r : Run} {token : String} {ttl : Nat} (clock : clockLimit < m.now + ttl) :
      Stride s m ⟨r, .keep token ttl⟩ ⟨⟨r, .ended none⟩, m.link, []⟩
  | kept {r : Run} {token : String} {ttl : Nat} (clock : m.now + ttl ≤ clockLimit) :
      Stride s m ⟨r, .keep token ttl⟩
        ⟨⟨r, .fetch⟩, { m.link with token := some ⟨token, m.now + ttl⟩ }, []⟩
  | found {r : Run} {token : String} (there : m.link.token? m.now = some token) :
      Stride s m ⟨r, .fetch⟩ ⟨⟨r, .ask (some token)⟩, m.link, []⟩
  /-- The token has gone meanwhile, or may not be used. -/
  | gone {r : Run} (absent : m.link.token? m.now = none) :
      Stride s m ⟨r, .fetch⟩ (r.setBack m.link "Login" .noToken)
  | sent {r : Run} {token : Option String} :
      Stride s m ⟨r, .ask token⟩
        ⟨⟨{ r with phase := .asking }, .asking (queryExchange s m.link r.query token)⟩, m.link, []⟩
  | lost {r : Run} {x : Exchange} (answer : m.answer x = .dropped) :
      Stride s m ⟨r, .asking x⟩ (r.setBack m.link "Request" .transport)
  | rejected {r : Run} {x : Exchange} {status : Nat} {body : Option String}
      (answer : m.answer x = .reply status body)
      (rejects : (s.logsIn && isRejection status) = true) :
      Stride s m ⟨r, .asking x⟩
        ⟨⟨r.rejected status, .forget⟩, m.link, [warning "Token rejected, re-authenticating..."]⟩
  | unreadable {r : Run} {x : Exchange} {status : Nat} (answer : m.answer x = .reply status none)
      (accepts : (s.logsIn && isRejection status) = false) :
      Stride s m ⟨r, .asking x⟩ ⟨⟨r, .ended (some (.error .transport))⟩, m.link, []⟩
  | accepted {r : Run} {x : Exchange} {status : Nat} {b : String}
      (answer : m.answer x = .reply status (some b)) (success : isSuccess status = true) :
      Stride s m ⟨r, .asking x⟩ ⟨⟨r, .ended (some (.ok b))⟩, m.link, []⟩
  | failed {r : Run} {x : Exchange} {status : Nat} {b : String}
      (answer : m.answer x = .reply status (some b))
      (accepts : (s.logsIn && isRejection status) = false) (failure : isSuccess status = false) :
      Stride s m ⟨r, .asking x⟩ ⟨⟨r, .ended (some (.error (.status status b)))⟩, m.link,
        [⟨"ERROR", (Trouble.status status b).text, []⟩]⟩
  | turned {r : Run} : Stride s m ⟨r, .turn⟩ ⟨⟨r, .round⟩, m.link.switch s, []⟩
  | forgotten {r : Run} :
      Stride s m ⟨r, .forget⟩ ⟨⟨r, .round⟩, { m.link with token := none }, []⟩
  | rest {r : Run} {res : Option (Except Trouble String)} :
      Stride s m ⟨r, .ended res⟩ ⟨⟨r, .ended res⟩, m.link, []⟩

theorem stride_round (s : Settings) (m : Moment) (r : Run) :
    Stride s m ⟨r, .round⟩ ((⟨r, .round⟩ : Trip).step s m) := by
  unfold Trip.step
  dsimp only
  split
  · next ha => exact .spent ha
  · next n ha =>
    unfold Link.entrance
    split
    · exact .entered ha none
    · split
      · next token _ => exact .entered ha (some token)
      · exact .unknown ha

theorem stride_asking (s : Settings) (m : Moment) (r : Run) (x : Exchange) :
    Stride s m ⟨r, .asking x⟩ ((⟨r, .asking x⟩ : Trip).step s m) := by
  unfold Trip.step
  dsimp only
  split
  · next ha => exact .lost ha
  · next status body ha =>
    split
    · next hrejects => exact .rejected ha hrejects
    · next haccepts =>
      have haccepts : (s.logsIn && isRejection status) = false := Bool.eq_false_iff.2 haccepts
      cases body with
      | none => exact .unreadable ha haccepts
      | some b =>
        dsimp only
        split
        · next hok => exact .accepted ha hok
        · next hno => exact .failed ha haccepts (Bool.eq_false_iff.2 hno)

/-- **A step does one of these things.** -/
theorem stride_step (s : Settings) (m : Moment) (t : Trip) : Stride s m t (t.step s m) := by
  obtain ⟨r, p⟩ := t
  cases p with
  | round => exact stride_round s m r
  | asking x => exact stride_asking s m r x
  | login => exact .login
  | loggingIn x =>
    unfold Trip.step
    dsimp only
    split
    · next token ttl hgrant => exact .granted hgrant
    · next why hgrant => exact .refused hgrant
  | keep token ttl =>
    unfold Trip.step
    dsimp only
    split
    · next hclock => exact .endless hclock
    · next hclock => exact .kept (Nat.le_of_not_lt hclock)
  | fetch =>
    unfold Trip.step
    dsimp only
    split
    · next token hthere => exact .found hthere
    · next habsent => exact .gone habsent
  | ask token => exact .sent
  | turn => exact .turned
  | forget => exact .forgotten
  | ended res => exact .rest

/-! ### What a request may still spend -/

/-- **What a request spends step by step is bounded by what it may spend.** -/
theorem count_add_left_le (left : Trip → Nat) {p : Trip → Bool}
    (h : ∀ (m : Moment) (t : Trip), left (t.step s m).trip + (p t).toNat ≤ left t)
    (w : Nat → Moment) (t : Trip) (i : Nat) :
    Nat.count (fun j => p (t.after s w j) = true) i + left (t.after s w i) ≤ left t := by
  induction i with
  | zero => rw [Nat.count_zero, Nat.zero_add, Trip.after]
  | succ i ih =>
    have hstep := h (w i) (t.after s w i)
    rw [Nat.count_succ, Trip.after]
    cases hp : p (t.after s w i) with
    | true =>
      rw [hp] at hstep
      simp only [if_true, Bool.toNat_true] at hstep ⊢
      omega
    | false =>
      rw [hp] at hstep
      simp only [Bool.false_eq_true, if_false, Bool.toNat_false] at hstep ⊢
      omega

/-! ### Alone -/

/-- What a request does next if it meets what it has left, at one time and over servers that always
answer alike. -/
def Onward.again (s : Settings) (now : Nat) (net : Exchange → Answer) (o : Onward) : Onward :=
  let p := o.trip.step s ⟨o.link, now, net⟩
  { p with log := o.log ++ p.log }

/-- A request that runs alone comes from one place to another. -/
def Reaches (s : Settings) (now : Nat) (net : Exchange → Answer) : Onward → Onward → Prop :=
  Relation.ReflTransGen fun o o' => o.again s now net = o'

def Run.stand (r : Run) : Move → Trip
  | .send x => ⟨r, if r.phase = .loggingIn then .loggingIn x else .asking x⟩
  | .finished res => ⟨r, .ended (some res)⟩
  | .panicked => ⟨r, .ended none⟩

def Received.onward (got : Received) (log : List LogLine) : Onward :=
  ⟨got.run.stand got.move, got.link, log ++ got.log⟩

variable {t' : Trip} {k' : Link} {line : List LogLine} {o : Onward}

theorem Reaches.step (hstep : t.step s ⟨k, now, net⟩ = ⟨t', k', line⟩)
    (h : Reaches s now net ⟨t', k', log ++ line⟩ o) : Reaches s now net ⟨t, k, log⟩ o := by
  refine Relation.ReflTransGen.head ?_ h
  show ({ t.step s ⟨k, now, net⟩ with log := log ++ (t.step s ⟨k, now, net⟩).log } : Onward) = _
  rw [hstep]

theorem Reaches.still (hstep : t.step s ⟨k, now, net⟩ = ⟨t', k', []⟩)
    (h : Reaches s now net ⟨t', k', log⟩ o) : Reaches s now net ⟨t, k, log⟩ o :=
  .step hstep (by rwa [List.append_nil])

theorem step_round {n : Nat} (ha : r.attempts = n + 1) :
    (⟨r, .round⟩ : Trip).step s m =
      ⟨⟨{ r with attempts := n }, m.link.entrance s m.now⟩, m.link, []⟩ := by
  unfold Trip.step
  rw [ha]

theorem Reaches.one (hstep : t.step s ⟨k, now, net⟩ = ⟨t', k', line⟩) :
    Reaches s now net ⟨t, k, log⟩ ⟨t', k', log ++ line⟩ :=
  .step hstep .refl

/-- **A round of a request that runs alone.** -/
theorem reaches_next (s : Settings) (now : Nat) (net : Exchange → Answer) (k : Link) (r : Run)
    (log : List LogLine) :
    Reaches s now net ⟨⟨r, .round⟩, k, log⟩
      ⟨(r.next s k now).1.stand (r.next s k now).2, k, log⟩ := by
  cases ha : r.attempts with
  | zero =>
    rw [next_of_no_attempts ha]
    refine .still ?_ .refl
    unfold Trip.step
    rw [ha]
    rfl
  | succ n =>
    rw [next_of_attempts ha]
    refine .still (step_round ha) ?_
    unfold Link.opening Link.entrance
    cases hs : s.logsIn with
    | false => exact .still rfl .refl
    | true =>
      cases ht : k.token? now with
      | some token => exact .still rfl .refl
      | none => exact .still rfl .refl

/-- **A request that runs alone and fails over.** -/
theorem reaches_failOver (s : Settings) (now : Nat) (net : Exchange → Answer) (k : Link) (r : Run)
    (what : String) (why : Trouble) (log : List LogLine)
    (hstep : t.step s ⟨k, now, net⟩ = r.setBack k what why) :
    Reaches s now net ⟨t, k, log⟩ ((r.failOver s k now what why).onward log) :=
  .step hstep (.still rfl (reaches_next ..))

theorem reaches_fetched (s : Settings) (now : Nat) (net : Exchange → Answer) (k : Link) (r : Run)
    (log : List LogLine) :
    Reaches s now net ⟨⟨r, .fetch⟩, k, log⟩ ((r.fetched s k now).onward log) := by
  unfold Run.fetched
  cases htoken : k.token? now with
  | some token =>
    have hask : (⟨r, .fetch⟩ : Trip).step s ⟨k, now, net⟩ =
        ⟨⟨r, .ask (some token)⟩, k, []⟩ := by
      unfold Trip.step
      simp only [htoken]
    exact .still hask (.one rfl)
  | none =>
    refine reaches_failOver s now net k r "Login" .noToken log ?_
    unfold Trip.step
    simp only [htoken]

/-- **A request that runs alone and receives what came back from a login.** -/
theorem reaches_loggedIn (s : Settings) (now : Nat) (net : Exchange → Answer) (k : Link) (r : Run)
    (x : Exchange) (log : List LogLine) :
    Reaches s now net ⟨⟨r, .loggingIn x⟩, k, log⟩
      ((r.loggedIn s k now (net x)).onward log) := by
  rw [loggedIn_eq]
  cases hgrant : (net x).grantOrTrouble with
  | error why =>
    refine reaches_failOver s now net k r "Login" why log ?_
    unfold Trip.step
    simp only [hgrant]
  | ok g =>
    obtain ⟨token, ttl⟩ := g
    have hkeep : (⟨r, .loggingIn x⟩ : Trip).step s ⟨k, now, net⟩ =
        ⟨⟨r, .keep token ttl⟩, k, []⟩ := by
      unfold Trip.step
      simp only [hgrant]
    refine .still hkeep ?_
    by_cases hclock : clockLimit < now + ttl
    · dsimp only
      rw [if_pos hclock]
      refine .one ?_
      unfold Trip.step
      exact if_pos hclock
    · dsimp only
      rw [if_neg hclock]
      have hfetch : (⟨r, .keep token ttl⟩ : Trip).step s ⟨k, now, net⟩ =
          ⟨⟨r, .fetch⟩, { k with token := some ⟨token, now + ttl⟩ }, []⟩ := by
        unfold Trip.step
        exact if_neg hclock
      exact .still hfetch (reaches_fetched ..)

theorem answered_of_rejects {status : Nat} {body : Option String}
    (h : (s.logsIn && isRejection status) = true) :
    r.answered s k now (.reply status body) =
      ⟨{ k with token := none }, ((r.rejected status).next s { k with token := none } now).1,
        ((r.rejected status).next s { k with token := none } now).2,
        [warning "Token rejected, re-authenticating..."]⟩ := by
  unfold Run.answered
  dsimp only
  rw [if_pos h]
  obtain ⟨query, attempts, relogin, last, phase⟩ := r
  cases relogin <;> rfl

/-- **A request that runs alone and receives what came back from its query.** -/
theorem reaches_answered (s : Settings) (now : Nat) (net : Exchange → Answer) (k : Link) (r : Run)
    (x : Exchange) (log : List LogLine) :
    Reaches s now net ⟨⟨r, .asking x⟩, k, log⟩
      ((r.answered s k now (net x)).onward log) := by
  have hstride := stride_asking s ⟨k, now, net⟩ r x
  generalize hstep : (⟨r, .asking x⟩ : Trip).step s ⟨k, now, net⟩ = got at hstride
  cases hstride with
  | lost answer =>
    rw [show net x = .dropped from answer]
    exact reaches_failOver s now net k r "Request" .transport log hstep
  | rejected answer rejects =>
    rw [show net x = _ from answer, answered_of_rejects rejects]
    exact .step hstep (.still rfl (reaches_next ..))
  | unreadable answer accepts =>
    rw [show net x = _ from answer]
    unfold Run.answered
    dsimp only
    rw [if_neg (Bool.eq_false_iff.1 accepts)]
    exact .one hstep
  | @accepted _ _ status b answer success =>
    rw [show net x = _ from answer]
    have haccepts : ¬ (s.logsIn && isRejection status) = true := by
      rw [isRejection_of_isSuccess success, Bool.and_false]
      exact Bool.false_ne_true
    unfold Run.answered
    dsimp only
    rw [if_neg haccepts, if_pos success]
    exact .one hstep
  | failed answer accepts failure =>
    rw [show net x = _ from answer]
    unfold Run.answered
    dsimp only
    rw [if_neg (Bool.eq_false_iff.1 accepts), if_neg (Bool.eq_false_iff.1 failure)]
    exact .one hstep

/-- **A request that runs alone and receives what came back.** -/
theorem reaches_receive (s : Settings) (now : Nat) (net : Exchange → Answer) (k : Link) (r : Run)
    (x : Exchange) (log : List LogLine) :
    Reaches s now net ⟨r.stand (.send x), k, log⟩
      ((r.receive s k now (net x)).onward log) := by
  unfold Run.stand Run.receive
  cases r.phase with
  | loggingIn => exact reaches_loggedIn ..
  | idle | asking => exact reaches_answered ..

theorem reaches_complete (now : Nat) (net : Exchange → Answer) (log : List LogLine) {fuel : Nat}
    {mv : Move} (hfit : r.Fits s k mv) (hleft : r.left mv ≤ fuel) :
    ∃ r', Reaches s now net ⟨r.stand mv, k, log⟩
      ⟨⟨r', .ended (r.complete s now net fuel k mv log).result⟩,
        (r.complete s now net fuel k mv log).link, (r.complete s now net fuel k mv log).log⟩ := by
  induction fuel generalizing k r mv log with
  | zero =>
    cases mv with
    | finished res => exact ⟨r, .refl⟩
    | panicked => exact ⟨r, .refl⟩
    | send x =>
      have hsend := r.lt_left_send x
      omega
  | succ fuel ih =>
    cases mv with
    | finished res => exact ⟨r, .refl⟩
    | panicked => exact ⟨r, .refl⟩
    | send x =>
      have hlt := left_receive now hfit (net x)
      obtain ⟨r', hr'⟩ := ih (log ++ (r.receive s k now (net x)).log)
        (fits_receive now hfit (net x)).1 (by omega)
      exact ⟨r', (reaches_receive ..).trans hr'⟩

/-- **A request that meets what it has left runs alone**, and comes to what `Link.run` comes to. -/
theorem reaches_run (s : Settings) (now : Nat) (net : Exchange → Answer) (k : Link) (q : Query) :
    ∃ r, Reaches s now net ⟨.new s q, k, []⟩
      ⟨⟨r, .ended (k.run s now net q).result⟩, (k.run s now net q).link,
        (k.run s now net q).log⟩ := by
  have hleft : ((Run.new s q).next s k now).1.left ((Run.new s q).next s k now).2 ≤
      2 * s.servers.length + 2 := by
    refine (left_next ..).trans ?_
    have hle := Bool.toNat_le s.logsIn
    show 2 * (s.servers.length + s.logsIn.toNat) ≤ 2 * s.servers.length + 2
    omega
  obtain ⟨r, hr⟩ := reaches_complete now net [] (fits_next s k now (.new s q)) hleft
  exact ⟨r, (reaches_next s now net k (.new s q) []).trans hr⟩

end Discovery.Naming.Remote
