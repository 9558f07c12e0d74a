import Discovery.Proofs.Remote.Failover

/-!
# Requests that run abreast

The requests of one client share the choice of the current server.  A request whose message is lost
switches to the server after the one that is current by then, which need not be the server that it
had asked: another request may have switched in the meantime.  It is overtaken then, and may ask one
server twice and pass over another.

A `Traffic` is the link and the requests over it, none of which log in.  A request goes on in two
kinds of steps, between which others may go on: it chooses the current server and sends, and it
receives what came back.

* `Traffic.run`: any requests, in any order of their steps.
* `receive_then_choose`: both kinds of steps of one request, right after another, are what
  `Run.receive` does.
* `answered_or_overtaken_of_run`: a request ends after as many messages as there are servers; it is
  answered by the only healthy server unless it was overtaken.
* `unanswered_of_crossing`: two requests at two servers, of which one gives up.
-/

namespace Discovery.Naming.Remote

/-! ### The two halves of a step -/

/-- The result that comes back to a request without a login, unless it was lost. -/
def Answer.result? : Answer → Option (Except Trouble String)
  | .dropped => none
  | .reply _ none => some (.error .transport)
  | .reply status (some body) =>
    some (if isSuccess status then .ok body else .error (.status status body))

/-- Where a request is. -/
inductive Stage where
  /-- It is to choose a server, if it has a round left. -/
  | choosing
  /-- It sent a message to a server. -/
  | awaiting (server : Nat) (x : Exchange)
  /-- It has ended.  There is no result if the clock gave out. -/
  | ended (result : Option (Except Trouble String))
deriving DecidableEq, Repr

/-- Where a move leads to if a server is the current one. -/
def Move.stage (server : Nat) : Move → Stage
  | .send x => .awaiting server x
  | .finished res => .ended (some res)
  | .panicked => .ended none

/-- A request, from which server what came back so far, and how often another one switched since it
sent its first message. -/
structure Caller where
  run : Run
  stage : Stage
  heard : List (Nat × Answer)
  overtaken : Nat
deriving DecidableEq, Repr

namespace Caller

def new (s : Settings) (q : Query) : Caller := ⟨Run.new s q, .choosing, [], 0⟩

/-- The servers to which it sent. -/
def tried (c : Caller) : List Nat :=
  c.heard.map (·.1) ++
    match c.stage with
    | .awaiting server _ => [server]
    | _ => []

/-- Another request switched. -/
def overtake (c : Caller) : Caller :=
  match c.stage with
  | .ended _ => c
  | _ => if c.tried = [] then c else { c with overtaken := c.overtaken + 1 }

/-- The request chooses the current server of a link and sends to it, or gives up. -/
def choose (s : Settings) (k : Link) (now : Nat) (c : Caller) : Caller :=
  { c with
    run := (c.run.next s k now).1
    stage := (c.run.next s k now).2.stage (k.place s) }

def hear (c : Caller) (server : Nat) (a : Answer) : Caller :=
  match a.result? with
  | some res => { c with stage := .ended (some res), heard := c.heard ++ [(server, a)] }
  | none => { c with
      run := { c.run with last := some .transport }
      stage := .choosing
      heard := c.heard ++ [(server, a)] }

end Caller

/-- The requests of a client, and how many messages came back to them. -/
structure Traffic where
  link : Link
  callers : List Caller
  answers : Nat
deriving DecidableEq, Repr

/-- What may happen; requests are known by their places. -/
inductive Event where
  | arrive (q : Query)
  | choose (i now : Nat)
  | receive (i : Nat)
deriving DecidableEq, Repr

def Event.isOf (i : Nat) : Event → Bool
  | .arrive _ => false
  | .choose j _ => i == j
  | .receive j => i == j

namespace Traffic

def begin (k : Link) : Traffic := ⟨k, [], 0⟩

def choose (s : Settings) (t : Traffic) (i now : Nat) (c : Caller) : Traffic :=
  { t with callers := t.callers.set i (c.choose s t.link now) }

/-- What came back from a server is received; if nothing did, the link switches, and those who are
under way are overtaken. -/
def receive (s : Settings) (t : Traffic) (i : Nat) (c : Caller) (server : Nat) (a : Answer) :
    Traffic :=
  match a.result? with
  | some _ =>
    { t with callers := t.callers.set i (c.hear server a), answers := t.answers + 1 }
  | none =>
    { link := t.link.switch s
      callers := (t.callers.map (·.overtake)).set i (c.hear server a)
      answers := t.answers + 1 }

def step (s : Settings) (net : Network) (t : Traffic) : Event → Option Traffic
  | .arrive q => some { t with callers := t.callers ++ [.new s q] }
  | .choose i now =>
    match t.callers[i]? with
    | some c =>  if c.stage = .choosing then some (t.choose s i now c) else none
    | none => none
  | .receive i =>
    match t.callers[i]? with
    | some c =>
      match c.stage with
      | .awaiting server x => some (t.receive s i c server (net t.answers x))
      | _ => none
    | none => none

def run (s : Settings) (net : Network) (t : Traffic) (es : List Event) : Option Traffic :=
  es.foldlM (step s net) t

end Traffic

variable {s : Settings} {net : Network} {t t' : Traffic} {c c' : Caller} {r : Run} {k : Link}
  {i j now h : Nat} {e : Event} {es : List Event}

theorem receive_of_result {a : Answer} {res : Except Trouble String} (now : Nat) (k : Link)
    (hs : s.logsIn = false) (hp : r.phase = .asking) (ha : a.result? = some res) :
    (r.receive s k now a).link = k ∧ (r.receive s k now a).run = r ∧
      (r.receive s k now a).move = .finished res := by
  cases a with
  | dropped => exact nomatch ha
  | reply status body =>
    cases body with
    | none =>
      obtain rfl := Option.some.inj ha
      simp [Run.receive, hp, Run.answered, hs]
    | some body =>
      obtain rfl := Option.some.inj ha
      by_cases hok : isSuccess status
      · simp [Run.receive, hp, Run.answered, hs, hok]
      · simp [Run.receive, hp, Run.answered, hs, hok]

theorem result_eq_none_iff {a : Answer} : a.result? = none ↔ a = .dropped := by
  constructor
  · intro ha
    cases a with
    | dropped => rfl
    | reply status body => cases body <;> exact nomatch ha
  · rintro rfl
    rfl

theorem getElem?_receive_self (server : Nat) (a : Answer) (hc : t.callers[i]? = some c) :
    (t.receive s i c server a).callers[i]? = some (c.hear server a) := by
  have hlt : i < t.callers.length := (List.getElem?_eq_some_iff.1 hc).1
  unfold Traffic.receive
  split
  · exact List.getElem?_set_self hlt
  · exact List.getElem?_set_self (by rwa [List.length_map])

/-- **A request that receives an answer and goes on at once** does what `Run.receive` says. -/
theorem receive_then_choose {server : Nat} {x : Exchange} (now : Nat) (hs : s.logsIn = false)
    (hc : t.callers[i]? = some c) (hstage : c.stage = .awaiting server x)
    (hp : c.run.phase = .asking) :
    ∃ t' c', t'.callers[i]? = some c' ∧
      t.run s net (.receive i ::
        if (net t.answers x).result?.isSome then [] else [.choose i now]) = some t' ∧
      t'.link = (c.run.receive s t.link now (net t.answers x)).link ∧
      c'.run = (c.run.receive s t.link now (net t.answers x)).run ∧
      c'.stage = (c.run.receive s t.link now (net t.answers x)).move.stage (t'.link.place s) := by
  have hreceive : t.step s net (.receive i) =
      some (t.receive s i c server (net t.answers x)) := by
    simp only [Traffic.step, hc, hstage]
  generalize net t.answers x = a at hreceive ⊢
  have hself := getElem?_receive_self (s := s) server a hc
  cases hres : a.result? with
  | some res =>
    obtain ⟨hlink, hrun, hmove⟩ := receive_of_result now t.link hs hp hres
    refine ⟨_, _, hself, ?_, ?_, ?_, ?_⟩
    · simp [Traffic.run, hreceive]
    · simp [Traffic.receive, hres, hlink]
    · simp [Caller.hear, hres, hrun]
    · simp [Caller.hear, hres, hmove, Move.stage]
  | none =>
    obtain rfl := result_eq_none_iff.1 hres
    obtain ⟨hlink, hnext⟩ := receive_dropped s now t.link c.run
    obtain ⟨hrun, hmove⟩ := Prod.ext_iff.1 hnext
    dsimp only at hrun hmove
    have hchoose : (t.receive s i c server .dropped).step s net (.choose i now) =
        some ((t.receive s i c server .dropped).choose s i now (c.hear server .dropped)) := by
      simp only [Traffic.step, hself]
      rfl
    have hlt := (List.getElem?_eq_some_iff.1 hself).1
    refine ⟨_, (c.hear server .dropped).choose s (t.link.switch s) now, ?_,
      show _ = some ((t.receive s i c server .dropped).choose s i now (c.hear server .dropped))
        from ?_, hlink.symm, hrun.symm, ?_⟩
    · exact List.getElem?_set_self hlt
    · simp [Traffic.run, hreceive, hchoose]
    · rw [hmove]
      rfl

theorem step_cases (ht : t.step s net e = some t') :
    (∃ q, e = .arrive q ∧ t' = { t with callers := t.callers ++ [.new s q] }) ∨
    (∃ i now c, e = .choose i now ∧ t.callers[i]? = some c ∧ c.stage = .choosing ∧
      t' = t.choose s i now c) ∨
    ∃ i c server x, e = .receive i ∧ t.callers[i]? = some c ∧ c.stage = .awaiting server x ∧
      t' = t.receive s i c server (net t.answers x) := by
  cases e with
  | arrive q => exact .inl ⟨q, rfl, (Option.some.inj ht).symm⟩
  | choose i now =>
    simp only [Traffic.step] at ht
    split at ht
    · next c hc =>
      split at ht
      · next hstage => exact .inr (.inl ⟨i, now, c, rfl, hc, hstage, (Option.some.inj ht).symm⟩)
      · exact nomatch ht
    · exact nomatch ht
  | receive i =>
    simp only [Traffic.step] at ht
    split at ht
    · next c hc =>
      split at ht
      · next server x hstage =>
        exact .inr (.inr ⟨i, c, server, x, rfl, hc, hstage, (Option.some.inj ht).symm⟩)
      · exact nomatch ht
    · exact nomatch ht

/-! ### What is known of a request -/

/-- Whatever was sent was lost, and nothing was sent to the server `h`. -/
def Lost (h : Nat) (heard : List (Nat × Answer)) : Prop :=
  ∀ m ∈ heard, m.1 ≠ h ∧ m.2 = .dropped

theorem Lost.concat {heard : List (Nat × Answer)} {server : Nat} (hl : Lost h heard)
    (hne : server ≠ h) : Lost h (heard ++ [(server, .dropped)]) := by
  intro m hm
  rcases List.mem_append.1 hm with hm | hm
  · exact hl m hm
  · rw [List.mem_singleton.1 hm]
    exact ⟨hne, rfl⟩

theorem tour_concat {n start count : Nat} :
    tour n start (count + 1) = tour n start count ++ [(start + count) % n] := by
  unfold tour
  rw [List.range_succ, List.map_append]
  rfl

namespace Caller

theorem tried_of_choosing (hstage : c.stage = .choosing) : c.tried = c.heard.map (·.1) := by
  simp [tried, hstage]

theorem tried_of_awaiting {server : Nat} {x : Exchange} (hstage : c.stage = .awaiting server x) :
    c.tried = c.heard.map (·.1) ++ [server] := by
  simp [tried, hstage]

/-- **A request that is not overtaken goes round**: it tries the servers in order, and the current
one is that which it asks, or the one after. -/
def OnTour (s : Settings) (k : Link) (c : Caller) : Prop :=
  c.overtaken = 0 → c.tried ≠ [] → ∃ start < s.servers.length,
    c.tried = tour s.servers.length start c.tried.length ∧
      k.place s = (start + c.heard.length) % s.servers.length

/-- The last thing that came back was a good reply of the server `h`, which is the result. -/
def Answered (h : Nat) (c : Caller) (res : Option (Except Trouble String)) : Prop :=
  ∃ past a body, c.heard = past ++ [(h, a)] ∧ Lost h past ∧ a.Accepts body ∧
    res = some (.ok body)

/-- All messages were lost, none of them was for the server `h`, and the request was overtaken. -/
def GaveUp (s : Settings) (h : Nat) (c : Caller) (res : Option (Except Trouble String)) : Prop :=
  c.heard.length = s.servers.length ∧ Lost h c.heard ∧ 0 < c.overtaken ∧
    res = some (.error .transport)

/-- What is known of a request while a link is what the requests share. -/
inductive Sound (s : Settings) (h : Nat) (k : Link) (c : Caller) : Prop where
  | choosing (stage : c.stage = .choosing)
      (rounds : c.run.attempts + c.heard.length = s.servers.length) (lost : Lost h c.heard)
      (last : c.heard ≠ [] → c.run.last = some .transport) (onTour : c.OnTour s k)
  | awaiting (server : Nat) (x : Exchange) (stage : c.stage = .awaiting server x)
      (rounds : c.run.attempts + 1 + c.heard.length = s.servers.length) (lost : Lost h c.heard)
      (phase : c.run.phase = .asking) (inside : server < s.servers.length)
      (sent : ∃ k' : Link, k'.place s = server ∧ x = queryExchange s k' c.run.query none)
      (onTour : c.OnTour s k)
  | ended (res : Option (Except Trouble String)) (stage : c.stage = .ended res)
      (few : c.heard.length ≤ s.servers.length) (result : c.Answered h res ∨ c.GaveUp s h res)

theorem sound_new (q : Query) : (new s q).Sound s h k :=
  .choosing rfl rfl (fun _ hm => absurd hm List.not_mem_nil) (fun hne => absurd rfl hne)
    fun _ hne => absurd rfl hne

theorem overtake_eq (hstage : ∀ res, c.stage ≠ .ended res) :
    c.tried = [] ∧ c.overtake = c ∨ c.overtake = { c with overtaken := c.overtaken + 1 } := by
  unfold overtake
  split
  · next res hover => exact absurd hover (hstage res)
  · split
    · next htried => exact .inl ⟨htried, rfl⟩
    · exact .inr rfl

theorem onTour_of_overtaken (hpos : 0 < c.overtaken) : c.OnTour s k :=
  fun hzero => absurd hzero hpos.ne'

theorem onTour_of_untried (htried : c.tried = []) : c.OnTour s k :=
  fun _ hne => absurd htried hne

/-- **Whatever becomes of the link**, the same is known of a request that was overtaken. -/
theorem Sound.overtake {k' : Link} (hc : c.Sound s h k) : c.overtake.Sound s h k' := by
  cases hc with
  | choosing hstage hrounds hlost hlast _ =>
    have hnot : ∀ res, c.stage ≠ .ended res := fun res hres => nomatch hstage.symm.trans hres
    rcases overtake_eq hnot with ⟨htried, heq⟩ | heq
    · rw [heq]
      exact .choosing hstage hrounds hlost hlast (onTour_of_untried htried)
    · rw [heq]
      exact .choosing hstage hrounds hlost hlast (onTour_of_overtaken (Nat.succ_pos _))
  | awaiting server x hstage hrounds hlost hphase hinside hsent _ =>
    have hnot : ∀ res, c.stage ≠ .ended res := fun res hres => nomatch hstage.symm.trans hres
    rcases overtake_eq hnot with ⟨htried, heq⟩ | heq
    · rw [tried_of_awaiting hstage] at htried
      exact absurd htried (by simp)
    · rw [heq]
      exact .awaiting server x hstage hrounds hlost hphase hinside hsent
        (onTour_of_overtaken (Nat.succ_pos _))
  | ended res hstage hfew hresult =>
    have heq : c.overtake = c := by simp [Caller.overtake, hstage]
    rw [heq]
    exact .ended res hstage hfew hresult

/-- A request that has no round left was overtaken: else it would have gone round. -/
theorem overtaken_pos (hh : h < s.servers.length) (hstage : c.stage = .choosing)
    (hrounds : c.heard.length = s.servers.length) (hlost : Lost h c.heard)
    (honTour : c.OnTour s k) : 0 < c.overtaken := by
  rw [Nat.pos_iff_ne_zero]
  intro hzero
  have htried := tried_of_choosing hstage
  have hlen : c.tried.length = s.servers.length := by
    rw [htried, List.length_map, hrounds]
  have hne : c.tried ≠ [] := by
    rw [← List.length_pos_iff, hlen]
    omega
  obtain ⟨start, hstart, htour, _⟩ := honTour hzero hne
  have hmem : h ∈ c.tried := by
    rw [htour, hlen]
    exact mem_tour hstart hh
  rw [htried] at hmem
  obtain ⟨m, hm, hmh⟩ := List.mem_map.1 hmem
  exact (hlost m hm).1 hmh

/-- **A request that chooses** sends to the current server, or was overtaken. -/
theorem Sound.choose (now : Nat) (hs : s.logsIn = false) (hh : h < s.servers.length)
    (hc : c.Sound s h k) (hstage : c.stage = .choosing) : (c.choose s k now).Sound s h k := by
  cases hc with
  | awaiting server x hstage' => exact nomatch hstage.symm.trans hstage'
  | ended res hstage' => exact nomatch hstage.symm.trans hstage'
  | choosing _ hrounds hlost hlast honTour =>
    have hn : 0 < s.servers.length := by omega
    cases ha : c.run.attempts with
    | zero =>
      rw [ha, Nat.zero_add] at hrounds
      have hne : c.heard ≠ [] := by
        rw [← List.length_pos_iff, hrounds]
        exact hn
      have hgive : c.choose s k now = { c with stage := .ended (some (.error .transport)) } := by
        simp [Caller.choose, Run.next, ha, hlast hne, Move.stage]
      have hpos := overtaken_pos hh hstage hrounds hlost honTour
      rw [hgive]
      exact .ended _ rfl hrounds.le (.inr ⟨hrounds, hlost, hpos, rfl⟩)
    | succ a =>
      have hsend : c.choose s k now = { c with
          run := { c.run with attempts := a, phase := .asking }
          stage := .awaiting (k.place s) (queryExchange s k c.run.query none) } := by
        simp [Caller.choose, next_of_attempts ha, opening_of_open hs, Move.stage]
      rw [hsend]
      refine .awaiting (k.place s) _ rfl (by simpa [ha] using hrounds) hlost rfl (place_lt hn)
        ⟨k, rfl, rfl⟩ ?_
      intro hzero _
      rw [tried_of_awaiting rfl]
      have htried := tried_of_choosing hstage
      by_cases hfirst : c.heard = []
      · refine ⟨k.place s, place_lt hn, ?_, ?_⟩
        · simp [hfirst, tour, Nat.mod_eq_of_lt (place_lt hn)]
        · simp [hfirst, Nat.mod_eq_of_lt (place_lt hn)]
      · obtain ⟨start, hstart, htour, hplace⟩ := honTour hzero (by simpa [htried] using hfirst)
        rw [htried, List.length_map] at htour
        refine ⟨start, hstart, ?_, hplace⟩
        rw [List.length_append, List.length_map, List.length_singleton, tour_concat, ← htour,
          hplace]

theorem Sound.length_tried_le (hc : c.Sound s h k) : c.tried.length ≤ s.servers.length := by
  cases hc with
  | choosing hstage hrounds =>
    rw [tried_of_choosing hstage, List.length_map]
    omega
  | awaiting server x hstage hrounds =>
    rw [tried_of_awaiting hstage, List.length_append, List.length_map, List.length_singleton]
    omega
  | ended res hstage hfew =>
    simpa [tried, hstage] using hfew

theorem Sound.sent {server : Nat} {x : Exchange} (hc : c.Sound s h k)
    (hstage : c.stage = .awaiting server x) : server < s.servers.length ∧
      ∃ k' : Link, k'.place s = server ∧ x = queryExchange s k' c.run.query none := by
  cases hc with
  | choosing hstage' => exact nomatch hstage.symm.trans hstage'
  | ended res hstage' => exact nomatch hstage.symm.trans hstage'
  | awaiting server' x' hstage' _ _ _ hinside hsent _ =>
    obtain ⟨rfl, rfl⟩ := Stage.awaiting.inj (hstage.symm.trans hstage')
    exact ⟨hinside, hsent⟩

theorem hear_of_accepted {server : Nat} {a : Answer} {body : String} (ha : a.Accepts body) :
    c.hear server a =
      { c with stage := .ended (some (.ok body)), heard := c.heard ++ [(server, a)] } := by
  obtain ⟨status, hok, rfl⟩ := ha
  simp [hear, Answer.result?, hok]

/-- **A good reply of the server `h`** ends a request. -/
theorem Sound.hear_accepted {k' : Link} {a : Answer} {body : String} {x : Exchange}
    (hc : c.Sound s h k) (hstage : c.stage = .awaiting h x) (ha : a.Accepts body) :
    (c.hear h a).Sound s h k' := by
  cases hc with
  | choosing hstage' => exact nomatch hstage.symm.trans hstage'
  | ended res hstage' => exact nomatch hstage.symm.trans hstage'
  | awaiting _ _ _ hrounds hlost =>
    have hfew : (c.heard ++ [(h, a)]).length ≤ s.servers.length := by
      rw [List.length_append, List.length_singleton]
      omega
    rw [hear_of_accepted ha]
    exact .ended _ rfl hfew (.inl ⟨c.heard, a, body, rfl, hlost, ha, rfl⟩)

/-- **A message that is lost** leaves the request to go on from the next server. -/
theorem Sound.hear_dropped {server : Nat} {x : Exchange} (hc : c.Sound s h k)
    (hstage : c.stage = .awaiting server x) (hne : server ≠ h) :
    (c.hear server .dropped).Sound s h (k.switch s) := by
  cases hc with
  | choosing hstage' => exact nomatch hstage.symm.trans hstage'
  | ended res hstage' => exact nomatch hstage.symm.trans hstage'
  | awaiting server' x' hstage' hrounds hlost _ hinside _ honTour =>
    have hsame := Stage.awaiting.inj (hstage.symm.trans hstage')
    have htried : (c.hear server .dropped).tried = c.tried := by
      rw [tried_of_choosing rfl, tried_of_awaiting hstage]
      exact List.map_append
    refine .choosing rfl ?_ (hlost.concat hne) (fun _ => rfl) fun hzero hnil => ?_
    · change c.run.attempts + (c.heard ++ [(server, Answer.dropped)]).length = _
      rw [List.length_append, List.length_singleton]
      omega
    · rw [htried] at hnil ⊢
      obtain ⟨start, hstart, htour, hplace⟩ := honTour hzero hnil
      refine ⟨start, hstart, htour, ?_⟩
      change (k.switch s).place s =
        (start + (c.heard ++ [(server, Answer.dropped)]).length) % s.servers.length
      rw [place_switch, hplace, Nat.mod_add_mod, List.length_append, List.length_singleton,
        Nat.add_assoc]

end Caller

/-! ### What is known of all requests -/

namespace Traffic

def Sound (s : Settings) (h : Nat) (t : Traffic) : Prop :=
  ∀ c ∈ t.callers, c.Sound s h t.link

/-- Nobody logs in, and of the servers only `h` answers, and answers well. -/
structure Lone (s : Settings) (net : Network) (h : Nat) : Prop where
  inside : h < s.servers.length
  noLogin : s.logsIn = false
  healthy : Healthy s net h
  others : ∀ x < s.servers.length, x ≠ h → Dead s net x

theorem sound_begin (s : Settings) (h : Nat) (k : Link) : (begin k).Sound s h :=
  fun _ hc => absurd hc List.not_mem_nil

theorem Sound.arrive (ht : t.Sound s h) (q : Query) :
    ({ t with callers := t.callers ++ [.new s q] } : Traffic).Sound s h := by
  intro y hy
  rcases List.mem_append.1 hy with hy | hy
  · exact ht y hy
  · rw [List.mem_singleton.1 hy]
    exact Caller.sound_new q

theorem Sound.choose (hl : Lone s net h) (ht : t.Sound s h) (hc : t.callers[i]? = some c)
    (hstage : c.stage = .choosing) : (t.choose s i now c).Sound s h := by
  intro y hy
  rcases List.mem_or_eq_of_mem_set hy with hy | rfl
  · exact ht y hy
  · exact (ht c (List.mem_of_getElem? hc)).choose now hl.noLogin hl.inside hstage

/-- **Whoever receives something**, the others are at most overtaken. -/
theorem Sound.receive {server : Nat} {x : Exchange} (hl : Lone s net h) (ht : t.Sound s h)
    (hc : t.callers[i]? = some c) (hstage : c.stage = .awaiting server x) :
    (t.receive s i c server (net t.answers x)).Sound s h := by
  have hsound := ht c (List.mem_of_getElem? hc)
  obtain ⟨hinside, k', hk', rfl⟩ := hsound.sent hstage
  by_cases hserver : server = h
  · subst hserver
    obtain ⟨body, ha⟩ := hl.healthy.welcomes hl.noLogin t.answers k' c.run.query hk'
    generalize net t.answers (queryExchange s k' c.run.query none) = a at ha ⊢
    have hres : a.result? = some (.ok body) := by
      obtain ⟨status, hok, rfl⟩ := ha
      simp [Answer.result?, hok]
    unfold Traffic.receive
    rw [hres]
    intro y hy
    rcases List.mem_or_eq_of_mem_set hy with hy | rfl
    · exact ht y hy
    · exact hsound.hear_accepted hstage ha
  · have hdropped := (hl.others server hinside hserver t.answers k' hk').2 c.run.query none
    rw [hdropped]
    intro y hy
    rcases List.mem_or_eq_of_mem_set hy with hy | rfl
    · obtain ⟨z, hz, rfl⟩ := List.mem_map.1 hy
      exact (ht z hz).overtake
    · exact hsound.hear_dropped hstage hserver

/-- **One event** keeps what is known. -/
theorem Sound.step (hl : Lone s net h) (ht : t.Sound s h) (hstep : t.step s net e = some t') :
    t'.Sound s h := by
  rcases step_cases hstep with ⟨q, rfl, rfl⟩ | ⟨i, now, c, rfl, hc, hstage, rfl⟩ |
    ⟨i, c, server, x, rfl, hc, hstage, rfl⟩
  · exact ht.arrive q
  · exact ht.choose hl hc hstage
  · exact ht.receive hl hc hstage

theorem Sound.run (hl : Lone s net h) (ht : t.Sound s h) (hrun : t.run s net es = some t') :
    t'.Sound s h := by
  induction es generalizing t with
  | nil =>
    obtain rfl := Option.some.inj hrun
    exact ht
  | cons e es ih =>
    obtain ⟨u, hu, hrest⟩ := Option.bind_eq_some_iff.1 hrun
    exact ih (ht.step hl hu) hrest

/-! ### How long a request takes -/

end Traffic

/-- A bound for the steps that a request has left. -/
def Caller.left (c : Caller) : Nat :=
  match c.stage with
  | .choosing => 2 * c.run.attempts + 1
  | .awaiting _ _ => 2 * c.run.attempts + 2
  | .ended _ => 0

theorem Caller.left_overtake : c.overtake.left = c.left := by
  unfold overtake
  split
  · rfl
  · split <;> rfl

theorem Caller.left_choose (s : Settings) (k : Link) (now : Nat) (hstage : c.stage = .choosing) :
    (c.choose s k now).left < c.left := by
  have hleft : c.left = 2 * c.run.attempts + 1 := by simp [left, hstage]
  cases ha : c.run.attempts with
  | zero =>
    have hover : (c.choose s k now).left = 0 := by
      simp [Caller.choose, Run.next, ha, Move.stage, left]
    omega
  | succ a =>
    have hsent : (c.choose s k now).left = 2 * a + 2 := by
      simp [Caller.choose, next_of_attempts ha, Move.stage, left]
    omega

theorem Caller.left_hear {server : Nat} {x : Exchange} (a : Answer)
    (hstage : c.stage = .awaiting server x) : (c.hear server a).left < c.left := by
  have hleft : c.left = 2 * c.run.attempts + 2 := by simp [left, hstage]
  rw [hleft]
  unfold hear
  split
  · exact Nat.succ_pos _
  · exact Nat.lt_succ_self _

namespace Traffic

/-- A bound for the steps that the request at a place has left, or will have. -/
def leftAt (s : Settings) (t : Traffic) (i : Nat) : Nat :=
  match t.callers[i]? with
  | some c => c.left
  | none => 2 * s.servers.length + 1

theorem leftAt_of_getElem? (hc : t.callers[i]? = some c) : t.leftAt s i = c.left := by
  simp [leftAt, hc]

theorem leftAt_congr (hc : t'.callers[i]? = t.callers[i]?) : t'.leftAt s i = t.leftAt s i := by
  simp [leftAt, hc]

theorem leftAt_arrive (q : Query) :
    ({ t with callers := t.callers ++ [.new s q] } : Traffic).leftAt s i = t.leftAt s i := by
  rcases lt_trichotomy i t.callers.length with hlt | heq | hgt
  · exact leftAt_congr (List.getElem?_append_left hlt)
  · have hnone : t.callers[i]? = none := List.getElem?_eq_none heq.ge
    have hnew : (t.callers ++ [Caller.new s q])[i]? = some (Caller.new s q) := by
      rw [heq, List.getElem?_concat_length]
    rw [leftAt_of_getElem? hnew]
    simp [leftAt, hnone, Caller.left, Caller.new, Run.new]
  · have hnone : t.callers[i]? = none := List.getElem?_eq_none hgt.le
    have hnone' : (t.callers ++ [Caller.new s q])[i]? = none := by
      rw [List.getElem?_eq_none_iff, List.length_append, List.length_singleton]
      omega
    exact leftAt_congr (hnone'.trans hnone.symm)

theorem leftAt_choose (hc : t.callers[j]? = some c) (hstage : c.stage = .choosing) :
    (t.choose s j now c).leftAt s i + (if i = j then 1 else 0) ≤ t.leftAt s i := by
  by_cases hij : i = j
  · subst hij
    have hself : (t.choose s i now c).callers[i]? = some (c.choose s t.link now) :=
      List.getElem?_set_self (List.getElem?_eq_some_iff.1 hc).1
    have hlt := Caller.left_choose s t.link now hstage
    rw [leftAt_of_getElem? hself, leftAt_of_getElem? hc, if_pos rfl]
    omega
  · have hother : (t.choose s j now c).callers[i]? = t.callers[i]? :=
      List.getElem?_set_ne (Ne.symm hij)
    rw [leftAt_congr hother, if_neg hij, Nat.add_zero]

theorem leftAt_receive {server : Nat} {x : Exchange} {a : Answer} (hc : t.callers[j]? = some c)
    (hstage : c.stage = .awaiting server x) :
    (t.receive s j c server a).leftAt s i + (if i = j then 1 else 0) ≤ t.leftAt s i := by
  by_cases hij : i = j
  · subst hij
    have hlt := Caller.left_hear a hstage
    rw [leftAt_of_getElem? (getElem?_receive_self server a hc), leftAt_of_getElem? hc, if_pos rfl]
    omega
  · rw [if_neg hij, Nat.add_zero]
    unfold Traffic.receive
    split
    · exact (leftAt_congr (List.getElem?_set_ne (Ne.symm hij))).le
    · have hother : ((t.callers.map (·.overtake)).set j (c.hear server a))[i]? =
          t.callers[i]?.map (·.overtake) := by
        rw [List.getElem?_set_ne (Ne.symm hij), List.getElem?_map]
      cases hi : t.callers[i]? with
      | none =>
        rw [hi] at hother
        exact (leftAt_congr (hother.trans hi.symm)).le
      | some y =>
        rw [hi] at hother
        rw [leftAt_of_getElem? hi, leftAt_of_getElem? hother, Caller.left_overtake]

/-- **Its own steps** bring a request nearer to its end, and nobody else takes it away from
there. -/
theorem leftAt_step (hstep : t.step s net e = some t') (i : Nat) :
    t'.leftAt s i + (if e.isOf i then 1 else 0) ≤ t.leftAt s i := by
  rcases step_cases hstep with ⟨q, rfl, rfl⟩ | ⟨j, now, c, rfl, hc, hstage, rfl⟩ |
    ⟨j, c, server, x, rfl, hc, hstage, rfl⟩
  · exact (leftAt_arrive q).le
  · simpa [Event.isOf] using leftAt_choose (i := i) hc hstage
  · simpa [Event.isOf] using leftAt_receive (i := i) hc hstage

theorem leftAt_run (hrun : t.run s net es = some t') (i : Nat) :
    t'.leftAt s i + es.countP (·.isOf i) ≤ t.leftAt s i := by
  induction es generalizing t with
  | nil =>
    obtain rfl := Option.some.inj hrun
    exact le_rfl
  | cons e es ih =>
    obtain ⟨u, hu, hrest⟩ := Option.bind_eq_some_iff.1 hrun
    have hstep := leftAt_step hu i
    have hes := ih hrest
    rw [List.countP_cons]
    omega

theorem exists_step (s : Settings) (net : Network) (hc : t.callers[i]? = some c)
    (hstage : ∀ res, c.stage ≠ .ended res) : ∃ e, e.isOf i = true ∧ (t.step s net e).isSome := by
  cases hs : c.stage with
  | choosing => exact ⟨.choose i 0, by simp [Event.isOf], by simp [step, hc, hs]⟩
  | awaiting server x => exact ⟨.receive i, by simp [Event.isOf], by simp [step, hc, hs]⟩
  | ended res => exact absurd hs (hstage res)

end Traffic

/-! ### Two servers -/

def openServers : Settings := { twoServers with user := "" }

/-- The first of two servers is down, and the second one accepts everything. -/
def secondAccepts : Network := fun _ x =>
  if startsWith x.url "http://a" then .dropped else .reply 200 (some "ok")

/-- Two requests that both choose the first server before either knows that it is down. -/
def crossing : List Event :=
  [.arrive ⟨"GET", "/v1/ns/instance", []⟩, .arrive ⟨"GET", "/v1/ns/instance", []⟩,
    .choose 0 0, .choose 1 0, .receive 0, .receive 1, .choose 1 0, .receive 1, .choose 1 0]

theorem lone_secondAccepts : Traffic.Lone openServers secondAccepts 1 where
  inside := by decide
  noLogin := by decide
  healthy := by
    refine ⟨fun _ i k q hk => ⟨"ok", 200, rfl, ?_⟩, fun hs => absurd hs (by decide),
      fun hs => absurd hs (by decide)⟩
    exact if_neg (not_startsWith_url hk q.path)
  others := by
    intro x hx hne i k hk
    have hlt : x < 2 := hx
    obtain rfl : x = 0 := by omega
    have hurl := startsWith_url_of_first hk
    exact ⟨if_pos (hurl openServers.loginPath), fun q t => if_pos (hurl q.path)⟩

/-! ### All requests -/

namespace Traffic

/-- **Requests that run abreast** end after as many messages as there are servers.  Each is
answered by the only healthy server, unless it was overtaken. -/
theorem answered_or_overtaken_of_run (hl : Lone s net h) (hrun : (begin k).run s net es = some t)
    (hc : t.callers[i]? = some c) :
    (es.countP (·.isOf i) ≤ 2 * s.servers.length + 1 ∧ c.tried.length ≤ s.servers.length) ∧
    ((∀ res, c.stage ≠ .ended res) → ∃ e, e.isOf i = true ∧ (t.step s net e).isSome) ∧
    ∀ res, c.stage = .ended res → c.Answered h res ∨ c.GaveUp s h res := by
  have hsound := (sound_begin s h k).run hl hrun c (List.mem_of_getElem? hc)
  have hleft := leftAt_run hrun i
  have hbegin : (begin k).leftAt s i = 2 * s.servers.length + 1 := rfl
  refine ⟨⟨by omega, hsound.length_tried_le⟩, exists_step s net hc, ?_⟩
  intro res hres
  cases hsound with
  | choosing hstage => exact nomatch hres.symm.trans hstage
  | awaiting server x hstage => exact nomatch hres.symm.trans hstage
  | ended res' hstage hfew hresult =>
    obtain rfl := Stage.ended.inj (hres.symm.trans hstage)
    exact hresult

/-- The second of two requests that cross was overtaken. -/
theorem answered_or_overtaken_of_crossing : ∃ t c,
    (begin .new).run openServers secondAccepts crossing = some t ∧ t.callers[1]? = some c ∧
      (c.Answered 1 (some (.error .transport)) ∨
        c.GaveUp openServers 1 (some (.error .transport))) := by
  have hstage : (((begin .new).run openServers secondAccepts crossing).bind (·.callers[1]?)).map
      (·.stage) = some (.ended (some (.error .transport))) := by
    decide +kernel
  obtain ⟨c, hc, hover⟩ := Option.map_eq_some_iff.1 hstage
  obtain ⟨t, ht, hc⟩ := Option.bind_eq_some_iff.1 hc
  exact ⟨t, c, ht, hc, (answered_or_overtaken_of_run lone_secondAccepts ht hc).2.2 _ hover⟩

/-- **Two requests that cross**: the second one asks the first server again, and fails although the
second server accepts everything. -/
theorem unanswered_of_crossing : Lone openServers secondAccepts 1 ∧ ∃ t c,
    (begin .new).run openServers secondAccepts crossing = some t ∧ t.callers[1]? = some c ∧
      c.tried = [0, 0] ∧ c.stage = .ended (some (.error .transport)) := by
  have hstage : (((begin .new).run openServers secondAccepts crossing).bind (·.callers[1]?)).map
      (fun c => (c.tried, c.stage)) = some ([0, 0], .ended (some (.error .transport))) := by
    decide +kernel
  obtain ⟨c, hc, hover⟩ := Option.map_eq_some_iff.1 hstage
  obtain ⟨t, ht, hc⟩ := Option.bind_eq_some_iff.1 hc
  obtain ⟨htried, hover⟩ := Prod.ext_iff.1 hover
  exact ⟨lone_secondAccepts, t, c, ht, hc, htried, hover⟩

end Traffic

end Discovery.Naming.Remote
