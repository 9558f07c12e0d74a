import Discovery.Proofs.Remote.Response

/-!
# Rejected tokens

A token that is rejected is forgotten, and the request logs in again at the same server.  Each
rejection takes one of the rounds that a request has, and the first one gives one more, so it is not
the number of rejections that is limited but that of rounds: where there are `n` servers, a request
may be rejected `n + 1` times.

* `Course.rejections`, `Course.setbacks`: the messages of a course after which a request logs in
  again at a server, and those after which it goes to the next one.
* `takes_receive`: each of them takes a round, and the first rejection gives one.
* `rejections_of_query`: what this comes to for a query, and servers at which it comes to as much as
  it can.
* `three_rejections`: two servers, and a query that is rejected three times.
-/

namespace Discovery.Naming.Remote

variable {s : Settings} {now : Nat} {net : Network} {fuel i j : Nat} {k : Link} {r : Run}
  {m : Move} {q : Query} {c : Course} {a : Answer} {x : Exchange} {y y' : Sent} {ys : List Sent}
  {f : Sent → Answer → Bool}

/-! ### Counting -/

def Sent.rejected (y : Sent) (a : Answer) : Bool :=
  y.phase == .asking && a.rejects

/-- A message after which a request goes to the next server: a query that was lost, or a login that
gave no token that may be used. -/
def Sent.setBack (y : Sent) (a : Answer) : Bool :=
  match y.phase with
  | .idle => false
  | .loggingIn => !a.grant?.any fun g => decide (refreshWindow < g.2)
  | .asking => a == .dropped

/-- How many messages of a list were answered in some way.  The first one has the number `i`. -/
def tally (f : Sent → Answer → Bool) (net : Network) (i : Nat) (ys : List Sent) : Nat :=
  (ys.zipIdx i).countP fun y => f y.1 (net y.2 y.1.exchange)

theorem tally_cons : tally f net i (y :: ys) =
    tally f net (i + 1) ys + (f y (net i y.exchange)).toNat := by
  unfold tally
  rw [List.zipIdx_cons, List.countP_cons]
  cases f y (net i y.exchange) <;> rfl

def Course.rejections (c : Course) (net : Network) : Nat :=
  tally Sent.rejected net 0 c.sent

def Course.setbacks (c : Course) (net : Network) : Nat :=
  tally Sent.setBack net 0 c.sent

/-! ### How often a request may be rejected -/

/-- The rounds that a request has left, with the one in which it sends. -/
def Run.roundsWith (r : Run) : Move → Nat
  | .send _ => r.attempts + 1
  | _ => r.attempts

theorem roundsWith_next (s : Settings) (k : Link) (now : Nat) (r : Run) :
    (r.next s k now).1.roundsWith (r.next s k now).2 = r.attempts ∧
      (r.next s k now).1.relogin = r.relogin := by
  cases ha : r.attempts with
  | zero =>
    rw [next_of_no_attempts ha]
    exact ⟨ha, rfl⟩
  | succ n =>
    rw [next_of_attempts ha]
    exact ⟨rfl, rfl⟩

theorem roundsWith_failOver (s : Settings) (k : Link) (now : Nat) (r : Run) (what : String)
    (why : Trouble) :
    (r.failOver s k now what why).run.roundsWith (r.failOver s k now what why).move = r.attempts ∧
      (r.failOver s k now what why).run.relogin = r.relogin :=
  roundsWith_next s (k.switch s) now { r with last := some why }

theorem rejected_of_loggingIn (hp : y.phase = .loggingIn) (a : Answer) : y.rejected a = false := by
  unfold Sent.rejected
  rw [hp]
  rfl

/-- What is lost is not rejected, so a message takes one round at most. -/
theorem takes_one (y : Sent) (a : Answer) : (y.rejected a).toNat + (y.setBack a).toNat ≤ 1 := by
  cases hrej : y.rejected a with
  | false =>
    rw [Bool.toNat_false, Nat.zero_add]
    exact Bool.toNat_le _
  | true =>
    obtain ⟨hp, ha⟩ := Bool.and_eq_true_iff.1 hrej
    have hback : y.setBack a = false := by
      unfold Sent.setBack
      rw [eq_of_beq hp]
      cases a with
      | dropped => exact nomatch ha
      | reply => rfl
    rw [hback]
    exact le_rfl

/-- **Rejections and setbacks take a round each**, and the first rejection gives one. -/
theorem takes_receive (now : Nat) (hs : s.logsIn = true) (hfit : r.Fits s k (.send y.exchange))
    (hy : y.phase = r.phase) (a : Answer) :
    (y.rejected a).toNat + (y.setBack a).toNat +
        (r.receive s k now a).run.roundsWith (r.receive s k now a).move ≤
      r.attempts + 1 + min r.relogin.toNat (y.rejected a).toNat ∧
    (r.receive s k now a).run.relogin.toNat = r.relogin.toNat - (y.rejected a).toNat := by
  have hone := takes_one y a
  have hkept : ∀ got : Received, y.rejected a = false → got.run.roundsWith got.move = r.attempts →
      got.run.relogin = r.relogin →
      (y.rejected a).toNat + (y.setBack a).toNat + got.run.roundsWith got.move ≤
          r.attempts + 1 + min r.relogin.toNat (y.rejected a).toNat ∧
        got.run.relogin.toNat = r.relogin.toNat - (y.rejected a).toNat := by
    intro got hno hrounds hrelogin
    rw [hrelogin, hno, Bool.toNat_false]
    exact ⟨by omega, rfl⟩
  have hgot := response_receive s now k r a (hfit.imp And.left And.left)
  generalize r.receive s k now a = got at hgot ⊢
  cases hgot with
  | answered phase heard kept =>
    exact hkept _ (by simp [Sent.rejected, kept hs]) rfl rfl
  | endless phase => exact hkept _ (rejected_of_loggingIn (hy.trans phase) a) rfl rfl
  | granted phase grant clock lasts =>
    -- the round goes on at the same server
    have hback : y.setBack a = false := by simp [Sent.setBack, hy, phase, grant, lasts]
    rw [rejected_of_loggingIn (hy.trans phase), hback]
    exact ⟨by simp [Run.roundsWith], rfl⟩
  | brief phase | refused phase =>
    obtain ⟨hrounds, hrelogin⟩ := roundsWith_failOver ..
    exact hkept _ (rejected_of_loggingIn (hy.trans phase) a) hrounds hrelogin
  | lost phase dropped =>
    obtain ⟨hrounds, hrelogin⟩ := roundsWith_failOver ..
    exact hkept _ (by simp [Sent.rejected, dropped, Answer.rejects]) hrounds hrelogin
  | @rejected status _ phase logsIn answer rejects =>
    have hrej : y.rejected a = true := by simp [Sent.rejected, hy, phase, rejects]
    obtain ⟨hrounds, hrelogin⟩ := roundsWith_next s { k with token := none } now (r.rejected status)
    have hrefund : (r.rejected status).attempts = r.attempts + r.relogin.toNat := rfl
    have hle := Bool.toNat_le r.relogin
    rw [hrej, Bool.toNat_true] at hone ⊢
    rw [hrounds, hrelogin]
    exact ⟨by omega, (Nat.sub_eq_zero_of_le hle).symm⟩

/-- **How often a request is rejected or set back**: no more often than it has rounds, and if it is
rejected, the first time gives one more. -/
theorem tally_le_of_course (hs : s.logsIn = true) (hfit : r.Fits s k m)
    (hc : r.course? s now net fuel i k m = some c) :
    tally Sent.rejected net i c.sent + tally Sent.setBack net i c.sent ≤
      r.roundsWith m + min r.relogin.toNat (tally Sent.rejected net i c.sent) := by
  induction fuel generalizing i k r m c with
  | zero =>
    rcases nil_or_send_of_course hc with hnil | ⟨_, _, _, hfuel, -⟩
    · rw [hnil]
      exact Nat.zero_le _
    · exact nomatch hfuel
  | succ fuel ih =>
    rcases nil_or_send_of_course hc with hnil | ⟨_, x, d, hfuel, rfl, rfl, hd⟩
    · rw [hnil]
      exact Nat.zero_le _
    · obtain rfl := Nat.succ.inj hfuel
      have hrest := ih (fits_receive now hfit (net i x)).1 hd
      obtain ⟨htakes, hrelogin⟩ :=
        takes_receive (y := ⟨k.place s, r.phase, x⟩) now hs hfit rfl (net i x)
      change tally _ net i (⟨k.place s, r.phase, x⟩ :: d.sent) +
          tally _ net i (⟨k.place s, r.phase, x⟩ :: d.sent) ≤
        r.attempts + 1 + min _ (tally _ net i (⟨k.place s, r.phase, x⟩ :: d.sent))
      rw [tally_cons, tally_cons]
      dsimp only at htakes hrelogin ⊢
      omega

/-! ### What follows a rejection -/

theorem course_of_rejected {o : Option Course} (hs : s.logsIn = true)
    (hfit : r.Fits s k (.send y.exchange)) (hy : y.phase = r.phase) (hrej : y.rejected a = true)
    (hc : (r.receive s k now a).run.course? s now net fuel i (r.receive s k now a).link
      (r.receive s k now a).move = o) :
    ∃ status body, a = .reply status body ∧
      (r.rejected status).rounds? s now net fuel i { k with token := none } = o := by
  obtain ⟨hp, ha⟩ := Bool.and_eq_true_iff.1 hrej
  have hphase : r.phase = .asking := hy.symm.trans (eq_of_beq hp)
  have hgot := response_receive s now k r a (hfit.imp And.left And.left)
  generalize r.receive s k now a = got at hgot hc
  cases hgot with
  | answered _ _ kept => exact absurd ha (by rw [kept hs]; decide)
  | endless phase | granted phase | brief phase | refused phase =>
    exact nomatch phase.symm.trans hphase
  | lost _ dropped =>
    rw [dropped] at ha
    exact nomatch ha
  | rejected _ _ answer => exact ⟨_, _, answer, hc⟩

/-- **Behind a rejected query comes a login at the same server**, or the request ends. -/
theorem login_of_rejected (hs : s.logsIn = true) (hfit : r.Fits s k m)
    (hc : r.course? s now net fuel i k m = some c) (hy : c.sent[j]? = some y)
    (hrej : y.rejected (net (i + j) y.exchange) = true) :
    (∀ y', c.sent[j + 1]? = some y' → y'.phase = .loggingIn ∧ y'.server = y.server) ∧
      (c.sent[j + 1]? = none → ∃ status body, net (i + j) y.exchange = .reply status body ∧
        c.result = some (.error (.rejected status))) := by
  obtain ⟨fuel', k', r', -, hfit', hstand, hcourse⟩ := exists_stand hfit hc hy
  rw [drop_of_getElem? hy] at hcourse
  have hphase : y.phase = r'.phase := by rw [hstand]
  have hserver : y.server = k'.place s := by rw [hstand]
  obtain ⟨status, body, hanswer, hrest⟩ :=
    course_of_rejected hs hfit' hphase hrej (course_of_stand hcourse)
  constructor
  · intro y' hy'
    rw [drop_of_getElem? hy'] at hrest
    have hfirst := first_of_rounds hrest
    rw [opening_of_no_token hs rfl] at hfirst
    rw [hfirst, hserver]
    exact ⟨rfl, rfl⟩
  · intro hend
    rw [List.drop_eq_nil_of_le (List.getElem?_eq_none_iff.1 hend)] at hrest
    exact ⟨status, body, hanswer, (result_of_rounds hrest).2⟩

theorem exists_next_of_rejected (hs : s.logsIn = true) (hrel : r.relogin = true)
    (hfit : r.Fits s k m) (hc : r.course? s now net fuel i k m = some c)
    (hy : c.sent[j]? = some y) (hrej : y.rejected (net (i + j) y.exchange) = true)
    (hfirst : tally Sent.rejected net i (c.sent.take j) = 0) : ∃ y', c.sent[j + 1]? = some y' := by
  induction j generalizing fuel i k r m c with
  | zero =>
    obtain ⟨fuel', x, d, rfl, rfl, rfl, hd⟩ := send_of_course hc hy
    obtain rfl := Option.some.inj hy
    obtain ⟨status, body, -, hrest⟩ := course_of_rejected hs hfit rfl hrej hd
    obtain ⟨sent, l, res⟩ := d
    cases sent with
    | nil =>
      have hnone := (result_of_rounds hrest).1
      unfold Run.rejected at hnone
      rw [hrel] at hnone
      exact nomatch hnone
    | cons y' ys => exact ⟨y', rfl⟩
  | succ j ih =>
    obtain ⟨_, x, d, rfl, rfl, rfl, hd⟩ := send_of_course hc hy
    have htakes := takes_receive (y := ⟨k.place s, r.phase, x⟩) now hs hfit rfl (net i x)
    change tally _ net i (⟨k.place s, r.phase, x⟩ :: d.sent.take j) = 0 at hfirst
    rw [tally_cons] at hfirst
    have hkeeps : (r.receive s k now (net i x)).run.relogin = true := by
      rw [← Bool.toNat_eq_one, htakes.2, hrel, Bool.toNat_true]
      dsimp only at hfirst ⊢
      omega
    rw [show i + (j + 1) = i + 1 + j by omega] at hrej
    exact ih hkeeps (fits_receive now hfit (net i x)).1 hd hy hrej (by omega)

/-! ### Servers that reject every query -/

/-- Servers that grant tokens but reject the queries that bear them. -/
structure Stubborn (s : Settings) (now : Nat) (net : Network) : Prop where
  grants : ∀ i k, ∃ t ttl, (net i (loginExchange s k)).grant? = some (t, ttl) ∧
    refreshWindow < ttl ∧ now + ttl ≤ clockLimit
  rejects : ∀ i k q t, (net i (queryExchange s k q t)).rejects = true

/-- **Servers that reject every query** do so in each round that a request has. -/
theorem tally_of_stubborn (hs : s.logsIn = true) (hnet : Stubborn s now net)
    (hfit : r.Fits s k (.send x)) (hc : r.course? s now net fuel i k (.send x) = some c) :
    tally Sent.rejected net i c.sent = r.attempts + r.relogin.toNat + 1 := by
  induction fuel generalizing i k r x c with
  | zero => exact nomatch hc
  | succ fuel ih =>
    obtain ⟨d, hd, rfl⟩ := Option.map_eq_some_iff.1 hc
    change tally _ net i (⟨k.place s, r.phase, x⟩ :: d.sent) = _
    rw [tally_cons]
    rcases hfit with ⟨hp, rfl⟩ | ⟨hp, token, rfl⟩
    · obtain ⟨t, ttl, hgrant, hlasts, hclock⟩ := hnet.grants i k
      rw [receive_granted hp hgrant hlasts hclock] at hd
      rw [rejected_of_loggingIn hp, ih (.inr ⟨rfl, some t, rfl⟩) hd]
      rfl
    · have hrej : Sent.rejected ⟨k.place s, r.phase, queryExchange s k r.query token⟩
          (net i (queryExchange s k r.query token)) = true := by
        simp [Sent.rejected, hp, hnet.rejects]
      obtain ⟨status, body, -, hrest⟩ := course_of_rejected hs (.inr ⟨hp, token, rfl⟩) rfl hrej hd
      have hrefund : (r.rejected status).attempts = r.attempts + r.relogin.toNat := rfl
      rw [hrej, Bool.toNat_true, ← hrefund]
      cases ha : (r.rejected status).attempts with
      | zero =>
        rw [rounds_of_no_attempts ha] at hrest
        cases hrest
        rfl
      | succ n =>
        have hnext := fits_next s { k with token := none } now (r.rejected status)
        rw [next_of_attempts ha] at hnext
        rw [rounds_of_attempts ha] at hrest
        rw [ih hnext hrest]
        rfl

/-! ### What a query comes to -/

/-- What rejections do to a query: how many there may be, and what follows each of them. -/
structure Rebuffed (s : Settings) (net : Network) (c : Course) : Prop where
  /-- Rejections and setbacks are no more than the servers, and one more if there is a rejection. -/
  bound : c.rejections net + c.setbacks net ≤ s.servers.length + min 1 (c.rejections net)
  /-- What comes next is a login at the same server. -/
  again : ∀ j y y', c.sent[j]? = some y → y.rejected (net j y.exchange) = true →
    c.sent[j + 1]? = some y' → y'.phase = .loggingIn ∧ y'.server = y.server
  /-- If nothing comes next, the request fails with the rejection. -/
  ending : ∀ j y, c.sent[j]? = some y → y.rejected (net j y.exchange) = true →
    c.sent[j + 1]? = none → ∃ status body, net j y.exchange = .reply status body ∧
      c.result = some (.error (.rejected status))
  /-- Behind the first rejection something comes next. -/
  first : ∀ j y, c.sent[j]? = some y → y.rejected (net j y.exchange) = true →
    tally Sent.rejected net 0 (c.sent.take j) = 0 → ∃ y', c.sent[j + 1]? = some y'

theorem rebuffed_of_course (hs : s.logsIn = true) (hc : k.course? s now net q = some c) :
    Rebuffed s net c := by
  have hfit := fits_next s k now (Run.new s q)
  obtain ⟨hrounds, hrelogin⟩ := roundsWith_next s k now (Run.new s q)
  have hlogin : (Run.new s q).relogin = true := hs
  have hle := tally_le_of_course hs hfit hc
  rw [hrounds, hrelogin, hlogin] at hle
  refine ⟨hle, ?_, ?_, ?_⟩
  · intro j y y' hy hrej
    exact (login_of_rejected hs hfit hc hy (by rwa [Nat.zero_add])).1 y'
  · intro j y hy hrej hend
    obtain ⟨status, body, hanswer, hres⟩ :=
      (login_of_rejected hs hfit hc hy (by rwa [Nat.zero_add])).2 hend
    rw [Nat.zero_add] at hanswer
    exact ⟨status, body, hanswer, hres⟩
  · intro j y hy hrej hnone
    rw [← Nat.zero_add j] at hrej
    exact exists_next_of_rejected hs (hrelogin.trans hlogin) hfit hc hy hrej hnone

/-- **A query is rejected no more often than there are servers, and once more.**  Each rejection is
followed by a login at the same server or by the end, the first one by a login; messages that are
lost and logins that fail take from the same number.  Servers that reject every query come to as
many rejections as there may be. -/
theorem rejections_of_query (s : Settings) (now : Nat) (net : Network) (k : Link) (q : Query)
    (hs : s.logsIn = true) :
    ∃ c, k.ComesTo s now net q c ∧ Rebuffed s net c ∧
      (0 < s.servers.length → Stubborn s now net → c.rejections net = s.servers.length + 1) := by
  obtain ⟨c, hc⟩ := exists_course s now net k q
  refine ⟨c, comesTo_of_course hc, rebuffed_of_course hs hc, ?_⟩
  intro hn hnet
  obtain ⟨n, hlen⟩ := Nat.exists_eq_add_of_lt hn
  have hattempts : (Run.new s q).attempts = n + 1 := by
    show s.servers.length = n + 1
    omega
  have hlogin : (Run.new s q).relogin = true := hs
  have hfit := fits_next s k now (Run.new s q)
  rw [next_of_attempts hattempts] at hfit
  unfold Link.course? at hc
  rw [rounds_of_attempts hattempts] at hc
  have hcount := tally_of_stubborn hs hnet hfit hc
  dsimp only at hcount
  rw [hlogin, Bool.toNat_true] at hcount
  unfold Course.rejections
  omega

/-! ### Two servers -/

/-- Two servers that grant the token `t` and reject the queries that bear it. -/
def rejecting : Network := fun _ x =>
  if x.form ≠ [] then .reply 200 (some "\x7b\"accessToken\":\"t\"\x7d") else .reply 401 (some "")

theorem stubborn_rejecting : Stubborn twoServers 0 rejecting := by
  have hg : (Answer.reply 200 (some "\x7b\"accessToken\":\"t\"\x7d")).grant? =
      some ("t", defaultTtl) := by
    decide +kernel
  constructor
  · intro i k
    exact ⟨"t", defaultTtl, (congrArg _ (if_pos (by simp [loginExchange]))).trans hg, by decide,
      by decide⟩
  · intro i k q t
    exact (congrArg _ (if_neg (by simp [queryExchange]))).trans rfl

/-- A query with an old token is rejected three times. -/
theorem rejections_of_old_token :
    ∃ c, (⟨0, some ⟨"old", 9000⟩⟩ : Link).ComesTo twoServers 0 rejecting
        ⟨"GET", "/v1/ns/instance", []⟩ c ∧ Rebuffed twoServers rejecting c ∧
      c.rejections rejecting = 3 := by
  obtain ⟨c, hc, hrebuffed, hcount⟩ := rejections_of_query twoServers 0 rejecting
    ⟨0, some ⟨"old", 9000⟩⟩ ⟨"GET", "/v1/ns/instance", []⟩ (by decide)
  exact ⟨c, hc, hrebuffed, hcount (by decide) stubborn_rejecting⟩

/-- **A query that is rejected three times**, by the first of two servers. -/
theorem three_rejections :
    twoServers.logsIn = true ∧
    ∃ c, Link.new.ComesTo twoServers 0 rejecting ⟨"GET", "/v1/ns/instance", []⟩ c ∧
      c.rejections rejecting = 3 ∧ ∀ y ∈ c.sent, y.server = 0 := by
  have hcourse : (Link.new.course? twoServers 0 rejecting ⟨"GET", "/v1/ns/instance", []⟩).map
      (fun c => (c.rejections rejecting, c.sent.all fun y => y.server == 0)) =
        some (3, true) := by
    decide +kernel
  obtain ⟨c, hc, hall⟩ := Option.map_eq_some_iff.1 hcourse
  obtain ⟨hcount, hplace⟩ := Prod.mk.inj hall
  exact ⟨by decide, c, comesTo_of_course hc, hcount, fun y hy =>
    eq_of_beq (List.all_eq_true.1 hplace y hy)⟩

end Discovery.Naming.Remote
