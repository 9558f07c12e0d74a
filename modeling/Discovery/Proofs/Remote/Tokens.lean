import Discovery.Naming.Remote.Query
import Discovery.Proofs.Remote.Grant
import Discovery.Proofs.Since

/-!
# Tokens from request to request

The requests of one client share a token.  It is granted by a login and forgotten when a server
rejects it, and it is not used any more a while before it expires.  Here requests are made one after
the other, and each message is answered at some time and in some way.

* `Series`: the requests of a client, with all messages so far.
* `Series.Sound.step`: each step keeps the token in step with the answers so far.
* `tokens_of_series`: which token each message bears, and what else it carries.
* `tokens_of_relogin`: two requests, the first of which is granted a second token.
-/

namespace Discovery.Naming.Remote

/-! ### One request after the other -/

/-- A message, what was awaited of it, and the query of the request that it was sent for. -/
structure Message where
  query : Query
  phase : Phase
  exchange : Exchange
deriving DecidableEq, Repr

/-- A message that was answered at a time. -/
abbrev Heard := Message × Nat × Answer

/-- Requests that are made one after the other: the query that was asked last, the run that it leads
to unless it has ended, the messages that were sent, and when each of them was answered and how.
The last message may still be without an answer. -/
structure Series where
  link : Link
  query : Query
  underway : Option Run
  sent : List Message
  answers : List (Nat × Answer)
deriving DecidableEq, Repr

/-- Somebody makes a request, or the message that was sent last is answered. -/
inductive Series.Step where
  | ask (now : Nat) (q : Query)
  | answer (now : Nat) (a : Answer)
deriving DecidableEq, Repr

namespace Series

def begin : Series :=
  ⟨.new, ⟨"", "", []⟩, none, [], []⟩

def take (d : Series) (k : Link) (r : Run) : Move → Series
  | .send x => { d with
      link := k
      underway := some r
      sent := d.sent ++ [⟨d.query, r.phase, x⟩] }
  | _ => { d with link := k, underway := none }

/-- A step of the requests.  A request is made when the one before it has ended. -/
def step (s : Settings) (d : Series) : Step → Series
  | .ask now q =>
    match d.underway with
    | none =>
      { d with query := q }.take d.link ((Run.new s q).next s d.link now).1
        ((Run.new s q).next s d.link now).2
    | some _ => d
  | .answer now a =>
    match d.underway with
    | none => d
    | some r =>
      { d with answers := d.answers ++ [(now, a)] }.take (r.receive s d.link now a).link
        (r.receive s d.link now a).run (r.receive s d.link now a).move

def after (s : Settings) (steps : List Step) : Series :=
  steps.foldl (step s) begin

def history (d : Series) : List Heard :=
  d.sent.zip d.answers

end Series

/-! ### Tokens -/

/-- The token of a login that succeeded: a good reply named it, and the clock can show when it
expires. -/
def Heard.grant? (x : Heard) : Option String :=
  if x.1.phase = .loggingIn then
    (x.2.2.grant?.filter fun g => decide (x.2.1 + g.2 ≤ clockLimit)).map (·.1)
  else none

/-- A query whose token was rejected. -/
def Heard.IsRejected (x : Heard) : Prop :=
  x.1.phase = .asking ∧ x.2.2.rejects = true

/-- The token of the latest login that succeeded. -/
def Latest (t : String) (past : List Heard) : Prop :=
  Since (fun _ x => Heard.grant? x = some t) (fun _ x => Heard.grant? x = none) past

/-- The token of the latest login that succeeded, which has not been rejected since. -/
def Held (t : String) (past : List Heard) : Prop :=
  Since (fun _ x => Heard.grant? x = some t)
    (fun _ x => Heard.grant? x = none ∧ ¬ Heard.IsRejected x) past

/-- What the namespace adds to the parameters of a query. -/
def Settings.spaceParams (s : Settings) : List (String × String) :=
  if s.space = "" then [] else [("namespaceId", s.space)]

/-- What a token adds to the parameters of a query. -/
def tokenParams (token : Option String) : List (String × String) :=
  token.toList.map ("accessToken", ·)

/-- The queries that a client makes. -/
inductive Query.Own : Query → Prop
  | register (service : String) (i : Instance) : Own (registerQuery service i)
  | deregister (service ip : String) (port : UInt16) (ephemeral : Bool) :
      Own (deregisterQuery service ip port ephemeral)
  | beat (service : String) (i : Instance) (periodMs : Nat) : Own (beatQuery service i periodMs)
  | list (service : String) : Own (listQuery service)

/-- **What a message carries that is no login**: the parameters of the query, and behind them the
namespace and the token.  No query of a client has parameters of these names itself. -/
structure Message.Carries (s : Settings) (m : Message) (token : Option String) : Prop where
  phase : m.phase = .asking
  exchange : ∃ k, m.exchange = queryExchange s k m.query token
  params : m.exchange.query = m.query.params ++ s.spaceParams ++ tokenParams token
  tokens : m.query.Own →
    m.exchange.query.filter (·.1 == "accessToken") = tokenParams token
  spaces : m.query.Own →
    m.exchange.query.filter (·.1 == "namespaceId") = s.spaceParams

/-- A message that is a login. -/
structure Message.IsLogin (s : Settings) (m : Message) : Prop where
  phase : m.phase = .loggingIn
  exchange : ∃ k, m.exchange = loginExchange s k

variable {s : Settings} {now i j : Nat} {k : Link} {r : Run} {a : Answer} {x : Exchange}
  {t : String} {m : Message} {d : Series} {q : Query} {token : Option String} {past : List Heard}
  {h : Heard}

theorem Held.latest (h : Held t past) : Latest t past := by
  obtain ⟨before, first, after, hpast, hgrant, hkept⟩ := h
  exact ⟨before, first, after, hpast, hgrant, fun mid next rest he => (hkept mid next rest he).1⟩

theorem Held.concat (hheld : Held t past) (hgrant : h.grant? = none) (hrej : ¬ h.IsRejected) :
    Held t (past ++ [h]) :=
  Since.concat hheld ⟨hgrant, hrej⟩

theorem grant?_of_asking (hp : h.1.phase = .asking) : h.grant? = none := by
  unfold Heard.grant?
  rw [hp]
  rfl

theorem not_isRejected_of_loggingIn (hp : h.1.phase = .loggingIn) : ¬ h.IsRejected :=
  fun hrej => nomatch hp.symm.trans hrej.1

/-- **A token that was rejected is held again only after a login that was granted it.** -/
theorem exists_grant_of_held (hheld : Held t past) (hi : past[i]? = some h)
    (hrej : h.IsRejected) : ∃ l x, i < l ∧ past[l]? = some x ∧ x.grant? = some t := by
  obtain ⟨before, first, after, rfl, hgrant, hkept⟩ := hheld
  refine ⟨before.length, first, ?_, ?_, hgrant⟩
  · by_contra hle
    rcases Nat.lt_or_eq_of_le (Nat.le_of_not_lt hle) with hlt | heq
    · -- the rejection came after the login
      rw [List.getElem?_append_right (Nat.le_of_lt hlt)] at hi
      obtain ⟨n, hn⟩ := Nat.exists_eq_add_of_lt hlt
      have hafter : after[n]? = some h := by
        rw [← hi, hn, show before.length + n + 1 - before.length = n + 1 by omega]
        rfl
      have hsplit : after = after.take n ++ h :: after.drop (n + 1) := by
        rw [← drop_of_getElem? hafter, List.take_append_drop]
      exact (hkept _ _ _ hsplit).2 hrej
    · rw [← heq, List.getElem?_append_right (le_refl _), Nat.sub_self] at hi
      obtain rfl := Option.some.inj hi
      rw [grant?_of_asking hrej.1] at hgrant
      exact nomatch hgrant
  · rw [List.getElem?_append_right (le_refl _), Nat.sub_self]
    rfl

/-! ### Parameters -/

theorem Query.Own.params_ne (hq : q.Own) :
    ∀ p ∈ q.params, p.1 ≠ "accessToken" ∧ p.1 ≠ "namespaceId" := by
  cases hq with
  | register | deregister | beat | list =>
    simp [registerQuery, deregisterQuery, beatQuery, listQuery, serviceParams]

theorem filter_tokenParams (token : Option String) :
    (tokenParams token).filter (·.1 == "accessToken") = tokenParams token ∧
      (tokenParams token).filter (·.1 == "namespaceId") = [] := by
  cases token <;> exact ⟨rfl, rfl⟩

theorem filter_spaceParams (s : Settings) :
    s.spaceParams.filter (·.1 == "accessToken") = [] ∧
      s.spaceParams.filter (·.1 == "namespaceId") = s.spaceParams := by
  unfold Settings.spaceParams
  split <;> exact ⟨rfl, rfl⟩

theorem carries_queryExchange (s : Settings) (k : Link) (q : Query) (token : Option String) :
    (⟨q, .asking, queryExchange s k q token⟩ : Message).Carries s token := by
  have hparams : (queryExchange s k q token).query =
      q.params ++ s.spaceParams ++ tokenParams token := by
    cases token <;> rfl
  refine ⟨rfl, ⟨k, rfl⟩, hparams, fun hown => ?_, fun hown => ?_⟩
  · have hnone : q.params.filter (·.1 == "accessToken") = [] :=
      List.filter_eq_nil_iff.2 fun p hp he => (Query.Own.params_ne hown p hp).1 (eq_of_beq he)
    rw [hparams, List.filter_append, List.filter_append, hnone, (filter_spaceParams s).1,
      (filter_tokenParams token).1]
    rfl
  · have hnone : q.params.filter (·.1 == "namespaceId") = [] :=
      List.filter_eq_nil_iff.2 fun p hp he => (Query.Own.params_ne hown p hp).2 (eq_of_beq he)
    rw [hparams, List.filter_append, List.filter_append, hnone, (filter_spaceParams s).2,
      (filter_tokenParams token).2, List.nil_append, List.append_nil]

/-! ### What each step keeps -/

namespace Series

/-- A message may be sent after what was heard so far: it is a login, or it bears the token that is
held, if the client logs in at all. -/
def Fair (s : Settings) (past : List Heard) (m : Message) : Prop :=
  (s.logsIn = true ∧ (m.IsLogin s ∨ ∃ t, m.Carries s (some t) ∧ Held t past)) ∨
    (s.logsIn = false ∧ m.Carries s none)

/-- The token of a link is the one that is held by what was heard so far. -/
def Keeps (s : Settings) (k : Link) (past : List Heard) : Prop :=
  ∀ token, k.token = some token → s.logsIn = true ∧ Held token.text past

/-- A request waits for the answer to the last message. -/
structure Awaits (s : Settings) (d : Series) (r : Run) (before : List Message) (x : Exchange) :
    Prop where
  query : r.query = d.query
  fits : r.Fits s d.link (.send x)
  sent : d.sent = before ++ [⟨d.query, r.phase, x⟩]
  length : before.length = d.answers.length

/-- **The token goes by the answers so far.** -/
structure Sound (s : Settings) (d : Series) : Prop where
  held : Keeps s d.link d.history
  fair : ∀ j m, d.sent[j]? = some m → Fair s (d.history.take j) m
  /-- Between requests all messages are answered. -/
  idle : d.underway = none → d.sent.length = d.answers.length
  waits : ∀ r, d.underway = some r → ∃ before x, d.Awaits s r before x

/-- What a request goes on with when all messages are answered: it may be sent. -/
def Goes (s : Settings) (d : Series) (k : Link) (r : Run) : Move → Prop
  | .send x => r.Fits s k (.send x) ∧ Fair s d.history ⟨d.query, r.phase, x⟩
  | _ => True

theorem history_take {mv : Move} (hlength : d.sent.length = d.answers.length) :
    (d.take k r mv).history = d.history := by
  cases mv with
  | finished | panicked => rfl
  | send x =>
    show (d.sent ++ [_]).zip d.answers = d.sent.zip d.answers
    rw [← List.append_nil d.answers, List.zip_append hlength, List.zip_nil_right,
      List.append_nil, List.append_nil]

theorem Sound.take {mv : Move} (hheld : Keeps s k d.history)
    (hfair : ∀ j m, d.sent[j]? = some m → Fair s (d.history.take j) m)
    (hlength : d.sent.length = d.answers.length) (hquery : r.query = d.query)
    (hgoes : d.Goes s k r mv) : (d.take k r mv).Sound s := by
  have hhistory : (d.take k r mv).history = d.history := history_take hlength
  cases mv with
  | finished | panicked => exact ⟨hheld, hfair, fun _ => hlength, nofun⟩
  | send x =>
    refine ⟨hhistory ▸ hheld, ?_, nofun, ?_⟩
    · intro j m hm
      rw [hhistory]
      change (d.sent ++ [_])[j]? = some m at hm
      rcases Nat.lt_trichotomy j d.sent.length with hlt | rfl | hgt
      · rw [List.getElem?_append_left hlt] at hm
        exact hfair j m hm
      · rw [List.getElem?_concat_length] at hm
        obtain rfl := Option.some.inj hm
        have hall : d.history.length ≤ d.sent.length := by
          rw [history, List.length_zip]
          exact Nat.min_le_left _ _
        rw [List.take_of_length_le hall]
        exact hgoes.2
      · rw [List.getElem?_eq_none (by rw [List.length_append]; exact hgt)] at hm
        exact nomatch hm
    · intro r' hr'
      obtain rfl := Option.some.inj hr'
      exact ⟨d.sent, x, hquery, hgoes.1, rfl, hlength⟩

theorem exists_of_token? (ht : k.token? now = some t) :
    ∃ token, k.token = some token ∧ token.text = t := by
  obtain ⟨token, htoken, rfl⟩ := Option.map_eq_some_iff.1 ht
  exact ⟨token, (Option.filter_eq_some_iff.1 htoken).1, rfl⟩

/-- **A round begins** with a login, or with the token that is held. -/
theorem goes_next (now : Nat) (hheld : Keeps s k d.history) (hquery : r.query = d.query) :
    d.Goes s k (r.next s k now).1 (r.next s k now).2 := by
  have hfits := fits_next s k now r
  cases ha : r.attempts with
  | zero =>
    rw [next_of_no_attempts ha]
    trivial
  | succ n =>
    rw [next_of_attempts ha] at hfits ⊢
    refine ⟨hfits, ?_⟩
    rw [hquery]
    cases hs : s.logsIn with
    | false =>
      rw [opening_of_open hs]
      exact .inr ⟨hs, carries_queryExchange s k d.query none⟩
    | true =>
      cases ht : k.token? now with
      | none =>
        rw [opening_of_no_token hs ht]
        exact .inl ⟨hs, .inl ⟨rfl, k, rfl⟩⟩
      | some t =>
        obtain ⟨token, htoken, rfl⟩ := exists_of_token? ht
        rw [opening_of_token hs ht]
        have hcarries := carries_queryExchange s k d.query (some token.text)
        exact .inl ⟨hs, .inr ⟨token.text, hcarries, (hheld token htoken).2⟩⟩

theorem Sound.ask (h : d.Sound s) (now : Nat) (q : Query) : (d.step s (.ask now q)).Sound s := by
  unfold step
  cases hunder : d.underway with
  | some r => simpa only [hunder] using h
  | none =>
    refine Sound.take (d := { d with query := q }) h.held h.fair (h.idle hunder) ?_ ?_
    · exact query_next s d.link now (Run.new s q)
    · exact goes_next (d := { d with query := q }) now h.held rfl

def hear (d : Series) (now : Nat) (a : Answer) : Series :=
  { d with answers := d.answers ++ [(now, a)] }

theorem logsIn_of_fair (hfair : Fair s past m) (hp : m.phase = .loggingIn) : s.logsIn = true := by
  rcases hfair with ⟨hs, -⟩ | ⟨-, hcarries⟩
  · exact hs
  · exact nomatch hp.symm.trans hcarries.phase

section Answer

variable {before : List Message} {k' : Link} {r' : Run} {ttl : Nat}

theorem Awaits.history_hear (w : d.Awaits s r before x) (now : Nat) (a : Answer) :
    (d.hear now a).history = d.history ++ [(⟨d.query, r.phase, x⟩, now, a)] := by
  have hbefore : d.history = before.zip d.answers := by
    unfold history
    rw [w.sent, ← List.append_nil d.answers, List.zip_append w.length, List.zip_nil_right,
      List.append_nil, List.append_nil]
  show d.sent.zip (d.answers ++ [(now, a)]) = _
  rw [hbefore, w.sent, List.zip_append w.length]
  rfl

theorem Awaits.length_hear (w : d.Awaits s r before x) (now : Nat) (a : Answer) :
    (d.hear now a).sent.length = (d.hear now a).answers.length := by
  simp [hear, w.sent, w.length]

theorem Awaits.fair_hear (w : d.Awaits s r before x) (h : d.Sound s) (now : Nat) (a : Answer) :
    ∀ j m, (d.hear now a).sent[j]? = some m → Fair s ((d.hear now a).history.take j) m := by
  intro j m hm
  have hlt : j < (d.hear now a).sent.length := (List.getElem?_eq_some_iff.1 hm).1
  have hj : j ≤ d.history.length := by
    simp only [hear, history, List.length_zip, w.sent, List.length_append, List.length_singleton,
      ← w.length] at hlt ⊢
    omega
  rw [w.history_hear, List.take_append_of_le_length hj]
  exact h.fair j m hm

theorem Awaits.logsIn (w : d.Awaits s r before x) (h : d.Sound s) (hp : r.phase = .loggingIn) :
    s.logsIn = true := by
  have hlast : d.sent[before.length]? = some ⟨d.query, r.phase, x⟩ := by
    rw [w.sent, List.getElem?_concat_length]
  exact logsIn_of_fair (h.fair _ _ hlast) hp

/-- What was held is held still, unless a login was granted another token or this was rejected. -/
theorem Awaits.keeps_hear (w : d.Awaits s r before x) (h : d.Sound s)
    (hgrant : Heard.grant? (⟨d.query, r.phase, x⟩, now, a) = none)
    (hrej : s.logsIn = true → ¬ Heard.IsRejected (⟨d.query, r.phase, x⟩, now, a)) :
    Keeps s d.link (d.hear now a).history := by
  intro token htoken
  obtain ⟨hs, hheld⟩ := h.held token htoken
  rw [w.history_hear]
  exact ⟨hs, hheld.concat hgrant (hrej hs)⟩

theorem Awaits.keeps_granted (w : d.Awaits s r before x) (h : d.Sound s)
    (hp : r.phase = .loggingIn) (hgrant : a.grant? = some (t, ttl))
    (hclock : now + ttl ≤ clockLimit) :
    Keeps s { d.link with token := some ⟨t, now + ttl⟩ } (d.hear now a).history := by
  intro token htoken
  obtain rfl := Option.some.inj htoken
  refine ⟨w.logsIn h hp, ?_⟩
  rw [w.history_hear]
  refine since_of_began ?_
  simp [Heard.grant?, hp, hgrant, hclock]

/-- **The request ends** with the answer. -/
theorem Awaits.sound_ended (w : d.Awaits s r before x) (h : d.Sound s)
    (hkeeps : Keeps s k' (d.hear now a).history) {mv : Move} (hmv : ∀ y, mv ≠ .send y) :
    ((d.hear now a).take k' r mv).Sound s := by
  refine Sound.take hkeeps (w.fair_hear h now a) (w.length_hear now a) w.query ?_
  cases mv with
  | send y => exact absurd rfl (hmv y)
  | finished | panicked => trivial

/-- **The request goes on** with another round. -/
theorem Awaits.sound_next (w : d.Awaits s r before x) (h : d.Sound s)
    (hkeeps : Keeps s k' (d.hear now a).history) (hquery : r'.query = r.query) :
    ((d.hear now a).take k' (r'.next s k' now).1 (r'.next s k' now).2).Sound s := by
  have hquery' : r'.query = (d.hear now a).query := hquery.trans w.query
  exact Sound.take hkeeps (w.fair_hear h now a) (w.length_hear now a)
    ((query_next s k' now r').trans hquery') (goes_next now hkeeps hquery')

end Answer

theorem Sound.answer (h : d.Sound s) (now : Nat) (a : Answer) :
    (d.step s (.answer now a)).Sound s := by
  unfold step
  cases hunder : d.underway with
  | none => simpa only [hunder] using h
  | some r =>
    obtain ⟨before, x, w⟩ := h.waits r hunder
    have hgot := response_receive s now d.link r a (w.fits.imp And.left And.left)
    show ((d.hear now a).take _ _ _).Sound s
    generalize r.receive s d.link now a = got at hgot ⊢
    cases hgot with
    | answered phase heard kept =>
      refine w.sound_ended h (w.keeps_hear h (grant?_of_asking phase) fun hs hrej => ?_) nofun
      exact Bool.false_ne_true ((kept hs).symm.trans hrej.2)
    | endless phase grant clock =>
      refine w.sound_ended h (w.keeps_hear h ?_ fun _ => not_isRejected_of_loggingIn phase) nofun
      simpa [Heard.grant?, phase, grant] using clock
    | @granted t ttl phase grant clock lasts =>
      have hkeeps := w.keeps_granted h phase grant clock
      have hcarries := carries_queryExchange s { d.link with token := some ⟨t, now + ttl⟩ } d.query
        (some t)
      refine Sound.take hkeeps (w.fair_hear h now a) (w.length_hear now a) w.query
        ⟨.inr ⟨rfl, some t, rfl⟩, ?_⟩
      rw [w.query]
      exact .inl ⟨w.logsIn h phase, .inr ⟨t, hcarries, (hkeeps _ rfl).2⟩⟩
    | brief phase grant clock lasts =>
      exact w.sound_next h (w.keeps_granted h phase grant clock) rfl
    | refused phase grant =>
      refine w.sound_next h (w.keeps_hear h ?_ fun _ => not_isRejected_of_loggingIn phase) rfl
      simp [Heard.grant?, phase, grant]
    | lost phase dropped =>
      refine w.sound_next h (w.keeps_hear h (grant?_of_asking phase) fun _ hrej => ?_) rfl
      have hrejects : a.rejects = true := hrej.2
      rw [dropped] at hrejects
      exact nomatch hrejects
    | rejected phase logsIn answer rejects => exact w.sound_next h nofun rfl

theorem sound_begin (s : Settings) : (begin).Sound s :=
  ⟨nofun, nofun, fun _ => rfl, nofun⟩

/-- **Each step keeps the token in step with the answers.** -/
theorem Sound.step (h : d.Sound s) (e : Step) : (d.step s e).Sound s := by
  cases e with
  | ask now q => exact h.ask now q
  | answer now a => exact h.answer now a

theorem sound_after (s : Settings) (steps : List Step) : (after s steps).Sound s := by
  unfold after
  induction steps using List.reverseRecOn with
  | nil => exact sound_begin s
  | append_singleton steps e ih =>
    rw [List.foldl_append]
    exact ih.step e

/-! ### Which token a message bears -/

theorem token_of_carries (h : m.Carries s (some t)) {t' : String} (h' : m.Carries s (some t')) :
    t = t' := by
  have hparams := h.params.symm.trans h'.params
  have htokens := List.append_cancel_left hparams
  exact congrArg Prod.snd (List.cons.inj htokens).1

/-- **Which token a message bears.**  If the client logs in, each message is a login or a query that
bears one token, that of the latest login that succeeded; and when a token has been rejected, no
token is borne any more, this one or another, but after a login that was granted it since.  If the
client does not log in, there are no logins, and no message bears a token.  All queries carry their
parameters, and the namespace if there is one. -/
theorem tokens_of_series (s : Settings) (steps : List Step) :
    (s.logsIn = true →
      (∀ j m, (after s steps).sent[j]? = some m →
        m.IsLogin s ∨ ∃ t, m.Carries s (some t) ∧ Latest t ((after s steps).history.take j)) ∧
      ∀ (i j : Nat) (x : Heard) (m : Message) t, i < j → (after s steps).history[i]? = some x →
        Heard.IsRejected x → (after s steps).sent[j]? = some m → m.Carries s (some t) →
        ∃ (l : Nat) (y : Heard), i < l ∧ l < j ∧ (after s steps).history[l]? = some y ∧
          Heard.grant? y = some t) ∧
    (s.logsIn = false → ∀ m ∈ (after s steps).sent, m.Carries s none) := by
  have hsound := sound_after s steps
  refine ⟨fun hs => ⟨fun j m hm => ?_, ?_⟩, fun hs m hm => ?_⟩
  · rcases hsound.fair j m hm with ⟨-, hlogin | ⟨t, hcarries, hheld⟩⟩ | ⟨hno, -⟩
    · exact .inl hlogin
    · exact .inr ⟨t, hcarries, hheld.latest⟩
    · exact nomatch hs.symm.trans hno
  · intro i j x m t hij hx hrej hm hcarries
    rcases hsound.fair j m hm with ⟨-, hlogin | ⟨t', hcarries', hheld⟩⟩ | ⟨hno, -⟩
    · exact nomatch hlogin.phase.symm.trans hcarries.phase
    · obtain rfl := token_of_carries hcarries hcarries'
      have hpast : ((after s steps).history.take j)[i]? = some x := by
        rw [List.getElem?_take_of_lt hij]
        exact hx
      obtain ⟨l, y, hil, hy, hgrant⟩ := exists_grant_of_held hheld hpast hrej
      have hlj : l < j := by
        have hlt := (List.getElem?_eq_some_iff.1 hy).1
        rw [List.length_take] at hlt
        exact Nat.lt_of_lt_of_le hlt (Nat.min_le_left _ _)
      refine ⟨l, y, hil, hlj, ?_, hgrant⟩
      rwa [List.getElem?_take_of_lt hlj] at hy
    · exact nomatch hs.symm.trans hno
  · obtain ⟨j, hj, rfl⟩ := List.mem_iff_getElem.1 hm
    rcases hsound.fair j _ (List.getElem?_eq_getElem hj) with ⟨hyes, -⟩ | ⟨-, hcarries⟩
    · exact nomatch hs.symm.trans hyes
    · exact hcarries

def loginWith (token : String) : Answer :=
  .reply 200 (some ("\x7b\"accessToken\":\"" ++ token ++ "\"\x7d"))

/-- The token `t` is rejected, and the token `u` is granted in its stead. -/
def relogin : List Step :=
  [.ask 0 (listQuery "web"), .answer 0 (loginWith "t"), .answer 1 (.reply 401 (some "")),
   .answer 2 (loginWith "u"), .answer 3 (.reply 200 (some "")), .ask 4 (listQuery "web")]

/-- The query that is asked twice, when it bears a token. -/
def listing (token : String) : Message :=
  ⟨listQuery "web", .asking, queryExchange twoServers .new (listQuery "web") (some token)⟩

/-- **The second request bears the new token**, and nothing bears the old one again. -/
theorem tokens_of_relogin :
    (∃ m, (after twoServers relogin).sent[4]? = some m ∧ m.Carries twoServers (some "u") ∧
      Latest "u" ((after twoServers relogin).history.take 4)) ∧
    ∀ j m, 1 < j → (after twoServers relogin).sent[j]? = some m →
      ¬ m.Carries twoServers (some "t") := by
  obtain ⟨hborne, hrejected⟩ := (tokens_of_series twoServers relogin).1 (by decide)
  constructor
  · have hlast : (after twoServers relogin).sent[4]? = some (listing "u") := by decide +kernel
    have hcarries : (listing "u").Carries twoServers (some "u") := carries_queryExchange ..
    refine ⟨_, hlast, hcarries, ?_⟩
    rcases hborne 4 _ hlast with hlogin | ⟨t, ht, hlatest⟩
    · exact nomatch hlogin.phase
    · obtain rfl := token_of_carries hcarries ht
      exact hlatest
  · intro j m hj hm hcarries
    have hold : (after twoServers relogin).history[1]? =
        some (listing "t", 1, .reply 401 (some "")) := by decide +kernel
    obtain ⟨l, y, hl, -, hy, hgrant⟩ := hrejected 1 j _ m "t" hj hold ⟨rfl, rfl⟩ hm hcarries
    -- the only login behind the rejection is granted another token
    have hgrants : ((after twoServers relogin).history.drop 2).all
        (fun y => Heard.grant? y != some "t") = true := by decide +kernel
    have hmem : y ∈ (after twoServers relogin).history.drop 2 := by
      refine List.mem_of_getElem? (i := l - 2) ?_
      rw [List.getElem?_drop, Nat.add_sub_cancel' hl]
      exact hy
    simpa [hgrant] using List.all_eq_true.1 hgrants y hmem

end Series

end Discovery.Naming.Remote
