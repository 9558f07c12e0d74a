import Discovery.Proofs.Remote.Course
import Mathlib.Data.List.Count
import Mathlib.Data.List.Nodup
import Mathlib.Data.Nat.ModEq

/-!
# Failing over

A request that runs alone tries the servers in cyclic order from the current one on.  It has as many
rounds as there are servers, and one more if a token is rejected, so it gets to a server that
answers if there is one.

* `tour`: the servers that are met one after the other; none is met twice in one round trip
  (`nodup_tour`), and all of them are met (`mem_tour`).
* `exists_rounds_of_dead`: servers that are down are left behind, one round each.
* `served_of_attempts`: at a healthy server one round is enough, whatever is known about the token.
* `failover_alone`: what a query comes to that finds a healthy server, or none.
* `panicked_of_endless_token`: the clock gives out over a token that is to last too long.
-/

namespace Discovery.Naming.Remote

/-! ### Round trips -/

/-- The servers that are met one after the other, where there are `n` of them. -/
def tour (n start count : Nat) : List Nat :=
  (List.range count).map fun j => (start + j) % n

section Tours

variable {n start count x : Nat}

theorem tour_succ : tour n start (count + 1) = start % n :: tour n (start + 1) count := by
  unfold tour
  rw [List.range_succ_eq_map, List.map_cons, List.map_map]
  congr 1
  apply List.map_congr_left
  intro j _
  have hassoc : start + (j + 1) = start + 1 + j := by omega
  simp only [Function.comp_apply, Nat.succ_eq_add_one, hassoc]

theorem tour_mod : tour n (start % n) count = tour n start count := by
  unfold tour
  apply List.map_congr_left
  intro j _
  exact Nat.mod_add_mod ..

theorem eq_of_mod_eq {i j : Nat} (hi : i < n) (hj : j < n)
    (h : (start + i) % n = (start + j) % n) : i = j := by
  have hmod : i ≡ j [MOD n] := Nat.ModEq.add_left_cancel' start h
  exact Nat.ModEq.eq_of_lt_of_lt hmod hi hj

theorem nodup_tour (hc : count ≤ n) : (tour n start count).Nodup := by
  refine List.Nodup.map_on ?_ List.nodup_range
  intro i hi j hj hij
  rw [List.mem_range] at hi hj
  exact eq_of_mod_eq (by omega) (by omega) hij

theorem exists_steps (hs : start < n) (hx : x < n) : ∃ d < n, (start + d) % n = x := by
  by_cases hle : start ≤ x
  · refine ⟨x - start, by omega, ?_⟩
    rw [show start + (x - start) = x by omega]
    exact Nat.mod_eq_of_lt hx
  · refine ⟨x + n - start, by omega, ?_⟩
    rw [show start + (x + n - start) = x + n by omega, Nat.add_mod_right]
    exact Nat.mod_eq_of_lt hx

theorem mem_tour (hs : start < n) (hx : x < n) : x ∈ tour n start n := by
  obtain ⟨d, hd, rfl⟩ := exists_steps hs hx
  exact List.mem_map.2 ⟨d, List.mem_range.2 hd, rfl⟩

end Tours

/-! ### Servers -/

variable {s : Settings} {now : Nat} {net : Network} {fuel i : Nat} {k k' : Link} {r : Run}
  {q : Query} {c : Course} {h : Nat}

/-- Whatever is sent to a server is lost. -/
def Dead (s : Settings) (net : Network) (x : Nat) : Prop :=
  ∀ i k, k.place s = x →
    net i (loginExchange s k) = .dropped ∧ ∀ q t, net i (queryExchange s k q t) = .dropped

/-- A server that answers well.  Without a login it accepts all queries; else it grants tokens that
last longer than tokens are used, and accepts the queries that bear one of them. -/
structure Healthy (s : Settings) (net : Network) (h : Nat) : Prop where
  welcomes : s.logsIn = false → ∀ i k q, k.place s = h →
    ∃ body, (net i (queryExchange s k q none)).Accepts body
  grants : s.logsIn = true → ∀ i k, k.place s = h →
    ∃ t ttl, (net i (loginExchange s k)).grant? = some (t, ttl) ∧ refreshWindow < ttl
  honours : s.logsIn = true → ∀ i j k k' t ttl q, i < j → k.place s = h → k'.place s = h →
    (net i (loginExchange s k)).grant? = some (t, ttl) →
      ∃ body, (net j (queryExchange s k' q (some t))).Accepts body

/-- The clock can show when the tokens of a server expire. -/
def Lasting (s : Settings) (now : Nat) (net : Network) (h : Nat) : Prop :=
  ∀ i k t ttl, k.place s = h → (net i (loginExchange s k)).grant? = some (t, ttl) →
    now + ttl ≤ clockLimit

/-- A server makes up its mind about the token that the link has: there is none that may be used,
or queries that bear it are accepted, or they are rejected. -/
def Minded (s : Settings) (now : Nat) (net : Network) (h : Nat) (k : Link) : Prop :=
  ∀ t, k.token? now = some t →
    (∀ i k' q, k'.place s = h → ∃ body, (net i (queryExchange s k' q (some t))).Accepts body) ∨
      ∀ i k' q, k'.place s = h → (net i (queryExchange s k' q (some t))).Rejects

/-- A message is a login or the query, and goes to the server that it was meant for. -/
def Sent.Proper (s : Settings) (q : Query) (m : Sent) : Prop :=
  ∃ k : Link, k.place s = m.server ∧
    (m.phase = .loggingIn ∧ m.exchange = loginExchange s k ∨
      m.phase = .asking ∧ ∃ t, m.exchange = queryExchange s k q t)

theorem proper_opening (s : Settings) (now : Nat) (q : Query) (k : Link) :
    Sent.Proper s q ⟨k.place s, (k.opening s now q).1, (k.opening s now q).2⟩ := by
  refine ⟨k, rfl, ?_⟩
  unfold Link.opening
  split
  · exact .inr ⟨rfl, none, rfl⟩
  · split
    · next t _ => exact .inr ⟨rfl, some t, rfl⟩
    · exact .inl ⟨rfl, rfl⟩

theorem opening_of_dead {x : Nat} (hd : Dead s net x) (hk : k.place s = x) :
    net i (k.opening s now q).2 = .dropped := by
  obtain ⟨hlogin, hquery⟩ := hd i k hk
  unfold Link.opening
  split
  · exact hquery q none
  · split
    · next t _ => exact hquery q (some t)
    · exact hlogin

theorem place_switch : (k.switch s).place s = (k.place s + 1) % s.servers.length := by
  simp [Link.place, Link.switch]

/-! ### Servers that are down -/

/-- **Servers that are down are left behind**, one round each. -/
theorem exists_rounds_of_dead (now : Nat) : ∀ (d : Nat) {k : Link} {r : Run} {i a : Nat},
    r.attempts = a + d → (∀ j < d, Dead s net ((k.place s + j) % s.servers.length)) →
    ∃ (k' : Link) (r' : Run) (ms : List Sent),
      k'.token = k.token ∧ k'.place s = (k.place s + d) % s.servers.length ∧
      r'.query = r.query ∧ r'.attempts = a ∧ r'.relogin = r.relogin ∧
      r'.last = (if d = 0 then r.last else some .transport) ∧
      (∀ m ∈ ms, m.Proper s r.query) ∧
      ms.map (·.server) = tour s.servers.length (k.place s) d ∧
      ∀ fuel, r.rounds? s now net (fuel + d) i k =
        (r'.rounds? s now net fuel (i + d) k').map (·.behind ms) := by
  intro d
  induction d with
  | zero =>
    intro k r i a ha _
    refine ⟨k, r, [], rfl, (Nat.mod_mod ..).symm, rfl, ha, rfl, rfl,
      fun m hm => absurd hm List.not_mem_nil, rfl, ?_⟩
    intro fuel
    have hid : (fun c : Course => c.behind []) = id := rfl
    rw [hid, Option.map_id]
    rfl
  | succ d ih =>
    intro k r i a ha hdead
    have hplace : k.place s % s.servers.length = k.place s := Nat.mod_mod ..
    have hhere : Dead s net (k.place s) := by
      have := hdead 0 (Nat.succ_pos d)
      rwa [Nat.add_zero, hplace] at this
    have hrest : ∀ j < d, Dead s net (((k.switch s).place s + j) % s.servers.length) := by
      intro j hj
      rw [place_switch, Nat.mod_add_mod, Nat.add_assoc, Nat.add_comm 1 j]
      exact hdead (j + 1) (Nat.succ_lt_succ hj)
    obtain ⟨k', r', ms, htoken, hk', hquery, hattempts, hrelogin, hlast, hproper, hserver,
      hrounds⟩ := ih (r := { r with
          attempts := a + d, phase := (k.opening s now r.query).1, last := some .transport })
        (i := i + 1) rfl hrest
    refine ⟨k', r', ⟨k.place s, (k.opening s now r.query).1, (k.opening s now r.query).2⟩ :: ms,
      htoken, ?_, hquery, hattempts, hrelogin, ?_, ?_, ?_, ?_⟩
    · rw [hk', place_switch, Nat.mod_add_mod, Nat.add_assoc, Nat.add_comm 1 d]
    · rw [hlast, if_neg (Nat.succ_ne_zero d)]
      exact ite_self _
    · intro m hm
      rcases List.mem_cons.1 hm with rfl | hm
      · exact proper_opening s now r.query k
      · exact hproper m hm
    · rw [List.map_cons, hserver, tour_succ, hplace, place_switch, tour_mod]
    · intro fuel
      rw [← Nat.add_assoc, rounds_of_dropped (a := a + d) (by omega) (opening_of_dead hhere rfl),
        hrounds, Option.map_map]
      have hi : i + 1 + d = i + (d + 1) := by omega
      rw [hi]
      congr 1

/-! ### A healthy server -/

theorem rounds_of_accepted {a : Nat} {x : Exchange} {body : String} (ha : r.attempts = a + 1)
    (ho : k.opening s now r.query = (.asking, x)) (hx : (net i x).Accepts body) :
    r.rounds? s now net (fuel + 1) i k =
      some ⟨[⟨k.place s, .asking, x⟩], k, some (.ok body)⟩ := by
  rw [rounds_of_attempts ha, ho]
  unfold Run.course?
  dsimp only
  rw [receive_accepted rfl hx]
  cases fuel <;> rfl

theorem rounds_of_granted {a ttl : Nat} {t body : String} (ha : r.attempts = a + 1)
    (ho : k.opening s now r.query = (.loggingIn, loginExchange s k))
    (hg : (net i (loginExchange s k)).grant? = some (t, ttl)) (httl : refreshWindow < ttl)
    (hclock : now + ttl ≤ clockLimit)
    (hx : (net (i + 1) (queryExchange s k r.query (some t))).Accepts body) :
    r.rounds? s now net (fuel + 2) i k =
      some ⟨[⟨k.place s, .loggingIn, loginExchange s k⟩,
          ⟨k.place s, .asking, queryExchange s k r.query (some t)⟩],
        { k with token := some ⟨t, now + ttl⟩ }, some (.ok body)⟩ := by
  rw [rounds_of_attempts ha, ho]
  unfold Run.course?
  dsimp only
  rw [receive_granted rfl hg httl hclock]
  dsimp only
  unfold Run.course?
  dsimp only
  rw [receive_accepted rfl hx]
  cases fuel <;> rfl

/-- A round in which the token is rejected is made up for. -/
theorem rounds_of_rejected {a : Nat} {x : Exchange} (ha : r.attempts = a + 1)
    (hs : s.logsIn = true) (hr : r.relogin = true)
    (ho : k.opening s now r.query = (.asking, x)) (hx : (net i x).Rejects) :
    ∃ r' : Run, r'.attempts = a + 1 ∧ r'.query = r.query ∧ ∀ fuel,
      r.rounds? s now net (fuel + 1) i k =
        (r'.rounds? s now net fuel (i + 1) { k with token := none }).map
          (·.behind [⟨k.place s, .asking, x⟩]) := by
  obtain ⟨hlink, t, hnext⟩ := receive_rejected (r := { r with attempts := a, phase := .asking })
    now k hs rfl hr hx
  obtain ⟨hrun, hmove⟩ := Prod.ext_iff.1 hnext
  dsimp only at hrun hmove
  refine ⟨{ r with attempts := a + 1, phase := .asking, relogin := false, last := some t },
    rfl, rfl, fun fuel => ?_⟩
  rw [rounds_of_attempts ha, ho]
  unfold Run.course?
  dsimp only
  rw [hlink, hrun, hmove]
  rfl

def Course.asked (c : Course) (x : Nat) : Nat :=
  c.sent.countP fun m => m.server == x && m.phase == .asking

/-- What a request does at a healthy server, which is where it ends.  Its first message there has
the number `i`. -/
structure Served (s : Settings) (net : Network) (q : Query) (h i : Nat) (c : Course) : Prop where
  here : ∀ m ∈ c.sent, m.server = h
  proper : ∀ m ∈ c.sent, m.Proper s q
  asked : c.asked h ≤ 2
  current : c.link.place s = h
  answered : ∃ m body, c.sent.getLast? = some m ∧ m.phase = .asking ∧
    (net (i + (c.sent.length - 1)) m.exchange).Accepts body ∧ c.result = some (.ok body)

theorem proper_query (k : Link) (q : Query) (t : Option String) :
    Sent.Proper s q ⟨k.place s, .asking, queryExchange s k q t⟩ :=
  ⟨k, rfl, .inr ⟨rfl, t, rfl⟩⟩

theorem proper_login (k : Link) (q : Query) :
    Sent.Proper s q ⟨k.place s, .loggingIn, loginExchange s k⟩ :=
  ⟨k, rfl, .inl ⟨rfl, rfl⟩⟩

theorem served_of_accepted {t : Option String} {body : String} (hk : k.place s = h)
    (hx : (net i (queryExchange s k q t)).Accepts body) :
    Served s net q h i ⟨[⟨k.place s, .asking, queryExchange s k q t⟩], k, some (.ok body)⟩ := by
  refine ⟨fun m hm => ?_, fun m hm => ?_, ?_, hk, _, body, rfl, rfl, hx, rfl⟩
  · rw [List.mem_singleton.1 hm]
    exact hk
  · rw [List.mem_singleton.1 hm]
    exact proper_query k q t
  · exact (List.countP_le_length ..).trans (by simp)

theorem served_behind {m : Sent} (hc : Served s net q h (i + 1) c) (hone : c.asked h ≤ 1)
    (hm : m.server = h) (hp : m.Proper s q) : Served s net q h i (c.behind [m]) := by
  obtain ⟨last, body, hlast, hphase, hbody, hres⟩ := hc.answered
  have hne : c.sent ≠ [] := by
    intro hnil
    rw [hnil] at hlast
    exact nomatch hlast
  have hpos : 0 < c.sent.length := List.length_pos_iff.2 hne
  refine ⟨?_, ?_, ?_, hc.current, last, body, ?_, hphase, ?_, hres⟩
  · intro m' hm'
    rcases List.mem_cons.1 hm' with rfl | hm'
    · exact hm
    · exact hc.here m' hm'
  · intro m' hm'
    rcases List.mem_cons.1 hm' with rfl | hm'
    · exact hp
    · exact hc.proper m' hm'
  · have hsplit : (c.behind [m]).asked h ≤ 1 + c.asked h := by
      unfold Course.asked Course.behind
      rw [List.countP_append]
      exact Nat.add_le_add_right (List.countP_le_length ..) _
    omega
  · have happ : (c.behind [m]).sent.getLast? = c.sent.getLast? := by
      unfold Course.behind
      exact List.getLast?_append_of_ne_nil [m] hne
    rw [happ]
    exact hlast
  · have hnum : i + ((c.behind [m]).sent.length - 1) = i + 1 + (c.sent.length - 1) := by
      simp only [Course.behind, List.length_append, List.length_singleton]
      omega
    rw [hnum]
    exact hbody

/-- **Without a token** a request logs in at a healthy server and then asks. -/
theorem served_of_no_token {a : Nat} (ha : r.attempts = a + 1) (hs : s.logsIn = true)
    (hh : Healthy s net h) (hl : Lasting s now net h) (hk : k.place s = h)
    (ht : k.token? now = none) :
    ∃ c, (∀ fuel, r.rounds? s now net (fuel + 2) i k = some c) ∧
      Served s net r.query h i c ∧ c.asked h ≤ 1 := by
  obtain ⟨t, ttl, hg, httl⟩ := hh.grants hs i k hk
  obtain ⟨body, hx⟩ := hh.honours hs i (i + 1) k k t ttl r.query (Nat.lt_succ_self i) hk hk hg
  have hone : ∀ m m' : Sent, m.phase = .loggingIn →
      [m, m'].countP (fun m => m.server == h && m.phase == .asking) ≤ 1 := by
    intro m m' hm
    rw [List.countP_cons_of_neg (by simp [hm])]
    exact List.countP_le_length ..
  refine ⟨_, fun fuel => rounds_of_granted ha (opening_of_no_token hs ht) hg httl
    (hl i k t ttl hk hg) hx, ⟨?_, ?_, ?_, hk, _, body, rfl, rfl, hx, rfl⟩, hone _ _ rfl⟩
  · intro m hm
    rcases List.mem_pair.1 hm with rfl | rfl <;> exact hk
  · intro m hm
    rcases List.mem_pair.1 hm with rfl | rfl
    · exact proper_login k r.query
    · exact proper_query k r.query (some t)
  · exact (hone _ _ rfl).trans (by omega)

/-- **At a healthy server one round is enough**, with the one that a rejected token gives. -/
theorem served_of_attempts {a : Nat} (ha : r.attempts = a + 1)
    (hr : r.relogin = s.logsIn) (hh : Healthy s net h)
    (hlogin : s.logsIn = true → Lasting s now net h ∧ Minded s now net h k) (hk : k.place s = h) :
    ∃ c, (∀ fuel, r.rounds? s now net (fuel + 3) i k = some c) ∧ Served s net r.query h i c := by
  cases hs : s.logsIn with
  | false =>
    obtain ⟨body, hx⟩ := hh.welcomes hs i k r.query hk
    exact ⟨_, fun fuel => rounds_of_accepted ha (opening_of_open hs) hx, served_of_accepted hk hx⟩
  | true =>
    obtain ⟨hl, hm⟩ := hlogin hs
    cases ht : k.token? now with
    | none =>
      obtain ⟨c, hc, hserved, _⟩ := served_of_no_token (i := i) ha hs hh hl hk ht
      exact ⟨c, fun fuel => hc (fuel + 1), hserved⟩
    | some t =>
      rcases hm t ht with hyes | hno
      · obtain ⟨body, hx⟩ := hyes i k r.query hk
        exact ⟨_, fun fuel => rounds_of_accepted ha (opening_of_token hs ht) hx,
          served_of_accepted hk hx⟩
      · -- the token is forgotten, and the round that this gives begins with a login
        have hx : (net i (queryExchange s k r.query (some t))).Rejects := hno i k r.query hk
        obtain ⟨r', ha', hquery, hrounds⟩ := rounds_of_rejected ha hs (hr.trans hs)
          (opening_of_token hs ht) hx
        obtain ⟨c, hc, hserved, honce⟩ := served_of_no_token (i := i + 1)
          (k := { k with token := none }) ha' hs hh hl hk rfl
        rw [hquery] at hserved
        refine ⟨_, fun fuel => ?_, served_behind hserved honce hk (proper_query k r.query (some t))⟩
        rw [hrounds, hc]
        rfl

/-! ### What a query comes to -/

/-- A query comes to a course.  Over servers that always answer alike this is also what running it
comes to. -/
def Link.ComesTo (k : Link) (s : Settings) (now : Nat) (net : Network) (q : Query) (c : Course) :
    Prop :=
  k.course? s now net q = some c ∧ ∀ f, net = (fun _ => f) →
    (k.run s now f q).link = c.link ∧ (k.run s now f q).result = c.result

theorem comesTo_of_course (hc : k.course? s now net q = some c) : k.ComesTo s now net q c := by
  refine ⟨hc, ?_⟩
  rintro f rfl
  exact run_eq_of_course hc

/-- What a query comes to that gets a good reply from the server `h`: the servers are tried in
cyclic order up to this one, which is then the current one, and the last message is answered. -/
structure Delivered (s : Settings) (net : Network) (k : Link) (q : Query) (h : Nat) (c : Course) :
    Prop where
  order : ∃ d times, d < s.servers.length ∧ (k.place s + d) % s.servers.length = h ∧
    c.sent.map (·.server) = tour s.servers.length (k.place s) d ++ List.replicate times h
  proper : ∀ m ∈ c.sent, m.Proper s q
  others : ∀ x ≠ h, (c.sent.map (·.server)).count x ≤ 1
  asked : c.asked h ≤ 2
  current : c.link.place s = h
  answered : ∃ m body, c.sent.getLast? = some m ∧ m.server = h ∧ m.phase = .asking ∧
    (net (c.sent.length - 1) m.exchange).Accepts body ∧ c.result = some (.ok body)

/-- What a query comes to that gets no reply: each server is tried once, in cyclic order, and the
current one is the same as before. -/
structure Exhausted (s : Settings) (k : Link) (q : Query) (c : Course) : Prop where
  order : c.sent.map (·.server) = tour s.servers.length (k.place s) s.servers.length
  proper : ∀ m ∈ c.sent, m.Proper s q
  once : ∀ x < s.servers.length, (c.sent.map (·.server)).count x = 1
  current : c.link.place s = k.place s
  result : c.result = some (.error .transport)

theorem place_lt (hn : 0 < s.servers.length) : k.place s < s.servers.length :=
  Nat.mod_lt _ hn

theorem delivered_of_served {d : Nat} {ms : List Sent} (hd : d < s.servers.length)
    (hplace : (k.place s + d) % s.servers.length = h) (hproper : ∀ m ∈ ms, m.Proper s q)
    (hserver : ms.map (·.server) = tour s.servers.length (k.place s) d)
    (hc : Served s net q h d c) : Delivered s net k q h (c.behind ms) := by
  obtain ⟨last, body, hlast, hphase, hbody, hres⟩ := hc.answered
  have hmem : last ∈ c.sent := List.mem_of_getLast? hlast
  have hpos : 0 < c.sent.length := List.length_pos_of_mem hmem
  have horder : (c.behind ms).sent.map (·.server) =
      tour s.servers.length (k.place s) d ++ List.replicate c.sent.length h := by
    have hhere : c.sent.map (·.server) = List.replicate c.sent.length h :=
      List.map_eq_replicate_iff.2 hc.here
    rw [← hserver, ← hhere]
    exact List.map_append
  have hbefore : ∀ m ∈ ms, m.server ≠ h := by
    intro m hm heq
    have htour : m.server ∈ ms.map (·.server) := List.mem_map_of_mem hm
    rw [hserver] at htour
    obtain ⟨j, hj, hjm⟩ := List.mem_map.1 htour
    rw [List.mem_range] at hj
    have hjd := eq_of_mod_eq (by omega) hd (hjm.trans (heq.trans hplace.symm))
    omega
  have hlen : ms.length = d := by
    have := congrArg List.length hserver
    simpa [tour] using this
  refine ⟨⟨d, _, hd, hplace, horder⟩, ?_, ?_, ?_, hc.current, last, body, ?_, hc.here last hmem,
    hphase, ?_, hres⟩
  · intro m hm
    rcases List.mem_append.1 hm with hm | hm
    · exact hproper m hm
    · exact hc.proper m hm
  · intro x hx
    have honce : (tour s.servers.length (k.place s) d).count x ≤ 1 :=
      List.nodup_iff_count_le_one.1 (nodup_tour hd.le) x
    rw [horder, List.count_append, List.count_replicate, if_neg (by simpa using hx.symm)]
    exact honce
  · have hnone : ms.countP (fun m => m.server == h && m.phase == .asking) = 0 := by
      rw [List.countP_eq_zero]
      intro m hm
      simp [hbefore m hm]
    have hasked := hc.asked
    unfold Course.asked Course.behind at *
    rw [List.countP_append, hnone]
    omega
  · have hne : c.sent ≠ [] := List.ne_nil_of_mem hmem
    have happ : (c.behind ms).sent.getLast? = c.sent.getLast? :=
      List.getLast?_append_of_ne_nil ms hne
    rw [happ]
    exact hlast
  · have hnum : (c.behind ms).sent.length - 1 = d + (c.sent.length - 1) := by
      simp only [Course.behind, List.length_append, hlen]
      omega
    rw [hnum]
    exact hbody

/-- **A query that finds a healthy server** is answered there. -/
theorem exists_delivered (hh : h < s.servers.length) (hhealthy : Healthy s net h)
    (hlogin : s.logsIn = true → Lasting s now net h ∧ Minded s now net h k)
    (hdead : ∀ x < s.servers.length, x ≠ h → Dead s net x) :
    ∃ c, k.ComesTo s now net q c ∧ Delivered s net k q h c := by
  have hn : 0 < s.servers.length := by omega
  obtain ⟨d, hd, hplace⟩ := exists_steps (place_lt (k := k) hn) hh
  have hbefore : ∀ j < d, Dead s net ((k.place s + j) % s.servers.length) := by
    intro j hj
    refine hdead _ (Nat.mod_lt _ hn) fun heq => ?_
    have hjd := eq_of_mod_eq (by omega) hd (heq.trans hplace.symm)
    omega
  obtain ⟨k', r', ms, htoken, hk', hquery, hattempts, hrelogin, -, hproper, hserver, hrounds⟩ :=
    exists_rounds_of_dead now d (k := k) (r := Run.new s q) (i := 0)
      (a := s.servers.length - d - 1 + 1) (show s.servers.length = _ by omega) hbefore
  have hminded : s.logsIn = true → Lasting s now net h ∧ Minded s now net h k' := by
    intro hs
    refine ⟨(hlogin hs).1, fun t ht => (hlogin hs).2 t ?_⟩
    unfold Link.token? at ht ⊢
    rwa [htoken] at ht
  obtain ⟨c, hc, hserved⟩ := served_of_attempts (i := 0 + d) hattempts hrelogin hhealthy hminded
    (hk'.trans hplace)
  rw [hquery, Nat.zero_add] at hserved
  refine ⟨c.behind ms, comesTo_of_course ?_, delivered_of_served hd hplace hproper hserver hserved⟩
  have hfuel : 2 * s.servers.length + 2 = 2 * s.servers.length - 1 - d + 3 + d := by omega
  unfold Link.course?
  rw [hfuel, hrounds, hc]
  rfl

/-- **A query that finds no server** has asked each of them once. -/
theorem exists_exhausted (hn : 0 < s.servers.length)
    (hdead : ∀ x < s.servers.length, Dead s net x) :
    ∃ c, k.ComesTo s now net q c ∧ Exhausted s k q c := by
  obtain ⟨k', r', ms, -, hk', -, hattempts, -, hlast, hproper, hserver, hrounds⟩ :=
    exists_rounds_of_dead now s.servers.length (k := k) (r := Run.new s q) (i := 0)
      (a := 0) (Nat.zero_add _).symm (fun j _ => hdead _ (Nat.mod_lt _ hn))
  rw [if_neg hn.ne'] at hlast
  have hcourse : k.course? s now net q = some ⟨ms, k', some (.error .transport)⟩ := by
    have hfuel : 2 * s.servers.length + 2 = s.servers.length + 2 + s.servers.length := by omega
    unfold Link.course?
    rw [hfuel, hrounds, rounds_of_no_attempts hattempts, hlast]
    simp [Course.behind]
  refine ⟨_, comesTo_of_course hcourse, hserver, hproper, ?_, ?_, rfl⟩
  · intro x hx
    rw [hserver]
    exact List.count_eq_one_of_mem (nodup_tour le_rfl) (mem_tour (place_lt hn) hx)
  · rw [hk', Nat.add_mod_right]
    exact Nat.mod_mod ..

/-! ### Two servers -/

def twoServers : Settings :=
  { Settings.default with servers := ["http://a:8848", "http://b:8848"], user := "u" }

/-- The first of two servers is down; the second one answers logins with a text, and queries that
bear the token `t` with another. -/
def secondAnswers (login : String) : Network := fun _ x =>
  if startsWith x.url "http://a" then .dropped
  else if x.form ≠ [] then .reply 200 (some login)
  else if x.query.getLast? = some ("accessToken", "t") then .reply 200 (some "ok")
  else .reply 403 (some "")

/-- A login reply with a token that lasts longer than a clock can show. -/
def endlessLogin : String := "\x7b\"accessToken\":\"t\",\"tokenTtl\":18446744073709551615\x7d"

section TwoServers

variable {login : String}

theorem server_twoServers (k : Link) :
    k.server twoServers = if k.place twoServers = 0 then "http://a:8848" else "http://b:8848" := by
  have hlt : k.place twoServers < 2 := Nat.mod_lt _ (by decide)
  change ["http://a:8848", "http://b:8848"].getD (k.place twoServers) "" = _
  obtain h | h : k.place twoServers = 0 ∨ k.place twoServers = 1 := by omega
  · rw [h]
    rfl
  · rw [h]
    rfl

theorem startsWith_url (k : Link) (path : String) :
    startsWith (twoServers.url (k.server twoServers) path) "http://a" =
      decide (k.place twoServers = 0) := by
  have hbare : twoServers.bareContext = "nacos" := by decide +kernel
  unfold Settings.url
  rw [hbare, server_twoServers]
  by_cases h : k.place twoServers = 0
  · simp [h, startsWith, String.toList_append]
  · rw [if_neg h, if_neg (by decide), decide_eq_false h]
    simp only [startsWith, String.toList_append]
    rfl

theorem startsWith_url_of_first {k : Link} (hk : k.place twoServers = 0) (path : String) :
    startsWith (twoServers.url (k.server twoServers) path) "http://a" = true := by
  rw [startsWith_url, hk]
  rfl

theorem not_startsWith_url {k : Link} (hk : k.place twoServers = 1) (path : String) :
    ¬ startsWith (twoServers.url (k.server twoServers) path) "http://a" = true := by
  rw [startsWith_url, hk]
  decide

theorem dead_secondAnswers : Dead twoServers (secondAnswers login) 0 := by
  intro i k hk
  have hurl := startsWith_url_of_first hk
  exact ⟨if_pos (hurl twoServers.loginPath), fun q t => if_pos (hurl q.path)⟩

theorem secondAnswers_login (hk : k.place twoServers = 1) :
    secondAnswers login i (loginExchange twoServers k) = .reply 200 (some login) := by
  have hurl := not_startsWith_url hk twoServers.loginPath
  exact (if_neg hurl).trans (if_pos (by simp [loginExchange]))

theorem secondAnswers_query (hk : k.place twoServers = 1) (t : String) :
    secondAnswers login i (queryExchange twoServers k q (some t)) =
      if t = "t" then .reply 200 (some "ok") else .reply 403 (some "") := by
  have hurl := not_startsWith_url hk q.path
  refine (if_neg hurl).trans ((if_neg (by simp [queryExchange])).trans ?_)
  simp [queryExchange]

theorem healthy_secondAnswers {ttl : Nat} (httl : refreshWindow < ttl)
    (hg : (Answer.reply 200 (some login)).grant? = some ("t", ttl)) :
    Healthy twoServers (secondAnswers login) 1 := by
  refine ⟨fun hs => absurd hs (by decide), fun _ i k hk => ⟨"t", ttl, ?_, httl⟩, ?_⟩
  · rw [secondAnswers_login hk]
    exact hg
  · intro _ i j k k' t ttl' q _ hk hk' ht
    rw [secondAnswers_login hk, hg] at ht
    obtain ⟨rfl, -⟩ := Prod.ext_iff.1 (Option.some.inj ht)
    rw [secondAnswers_query hk']
    exact ⟨"ok", 200, rfl, rfl⟩

theorem minded_secondAnswers (now : Nat) (login : String) (k : Link) :
    Minded twoServers now (secondAnswers login) 1 k := by
  intro t _
  by_cases ht : t = "t"
  · refine .inl fun i k' q hk' => ⟨"ok", 200, rfl, ?_⟩
    rw [secondAnswers_query hk', if_pos ht]
  · refine .inr fun i k' q hk' => ⟨403, some "", rfl, ?_⟩
    rw [secondAnswers_query hk', if_neg ht]

theorem others_secondAnswers (login : String) :
    ∀ x < twoServers.servers.length, x ≠ 1 → Dead twoServers (secondAnswers login) x := by
  intro x hx hne
  have hlt : x < 2 := hx
  obtain rfl : x = 0 := by omega
  exact dead_secondAnswers

end TwoServers

/-! ### One healthy server, or none -/

/-- **A query that runs alone** is answered by the only healthy server, whatever is known about the
token, as long as the clock can show when tokens expire.  If all servers are down, it fails after
one round trip. -/
theorem failover_alone (s : Settings) (now : Nat) (net : Network) (k : Link) (q : Query)
    (hn : 0 < s.servers.length) :
    (∀ h < s.servers.length, Healthy s net h →
      (s.logsIn = true → Lasting s now net h ∧ Minded s now net h k) →
      (∀ x < s.servers.length, x ≠ h → Dead s net x) →
        ∃ c, k.ComesTo s now net q c ∧ Delivered s net k q h c) ∧
    ((∀ x < s.servers.length, Dead s net x) →
      ∃ c, k.ComesTo s now net q c ∧ Exhausted s k q c) :=
  ⟨fun _ hh hhealthy hlogin hdead => exists_delivered hh hhealthy hlogin hdead,
    exists_exhausted hn⟩

/-- A rejected token is in the way of the query at the second server. -/
theorem failover_alone_of_rejected_token :
    (∃ c, (⟨0, some ⟨"old", 9000⟩⟩ : Link).ComesTo twoServers 0
        (secondAnswers "\x7b\"accessToken\":\"t\"\x7d") ⟨"GET", "/v1/ns/instance", []⟩ c ∧
      Delivered twoServers (secondAnswers "\x7b\"accessToken\":\"t\"\x7d") ⟨0, some ⟨"old", 9000⟩⟩
        ⟨"GET", "/v1/ns/instance", []⟩ 1 c) ∧
    ∃ c, (⟨0, some ⟨"old", 9000⟩⟩ : Link).ComesTo twoServers 0 (fun _ _ => .dropped)
        ⟨"GET", "/v1/ns/instance", []⟩ c ∧
      Exhausted twoServers ⟨0, some ⟨"old", 9000⟩⟩ ⟨"GET", "/v1/ns/instance", []⟩ c := by
  have hn : 0 < twoServers.servers.length := by decide
  have hg : (Answer.reply 200 (some "\x7b\"accessToken\":\"t\"\x7d")).grant? =
      some ("t", defaultTtl) := by
    decide +kernel
  have hlasting : Lasting twoServers 0 (secondAnswers "\x7b\"accessToken\":\"t\"\x7d") 1 := by
    intro i k t ttl hk ht
    rw [secondAnswers_login hk, hg] at ht
    obtain ⟨-, rfl⟩ := Prod.ext_iff.1 (Option.some.inj ht)
    decide
  refine ⟨(failover_alone twoServers 0 _ _ _ hn).1 1 (by decide)
    (healthy_secondAnswers (by decide) hg) (fun _ => ⟨hlasting, minded_secondAnswers 0 _ _⟩)
    (others_secondAnswers _), (failover_alone twoServers 0 _ _ _ hn).2 fun x _ i k _ => ?_⟩
  exact ⟨rfl, fun _ _ => rfl⟩

/-- **The clock gives out** over a token that the second server grants for too long. -/
theorem panicked_of_endless_token :
    Healthy twoServers (secondAnswers endlessLogin) 1 ∧
    Minded twoServers 0 (secondAnswers endlessLogin) 1 Link.new ∧
    (∀ x < twoServers.servers.length, x ≠ 1 → Dead twoServers (secondAnswers endlessLogin) x) ∧
    ∃ c, Link.new.ComesTo twoServers 0 (secondAnswers endlessLogin)
      ⟨"GET", "/v1/ns/instance", []⟩ c ∧ c.result = none := by
  have hg : (Answer.reply 200 (some endlessLogin)).grant? = some ("t", 18446744073709551615) := by
    decide +kernel
  have hcourse : (Link.new.course? twoServers 0 (secondAnswers endlessLogin)
      ⟨"GET", "/v1/ns/instance", []⟩).map (·.result.isNone) = some true := by
    decide +kernel
  obtain ⟨c, hc, hnone⟩ := Option.map_eq_some_iff.1 hcourse
  exact ⟨healthy_secondAnswers (by decide) hg, minded_secondAnswers 0 _ _,
    others_secondAnswers _, c, comesTo_of_course hc, Option.isNone_iff_eq_none.1 hnone⟩

end Discovery.Naming.Remote
