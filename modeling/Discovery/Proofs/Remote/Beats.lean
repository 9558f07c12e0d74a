import Discovery.Proofs.Naming.Directory
import Discovery.Proofs.Remote.Tasks
import Discovery.Proofs.Text.Separator

/-!
# Which instances are kept alive

A remote client keeps an instance alive from when it has registered it, if it is ephemeral, until
somebody asks for the instance at its address to go.  An instance that takes the place of another
one is kept alive in its stead.  An instance that is not ephemeral takes the place of another one
too, but that one is still kept alive.

* `beatKey_inj`: the name of an address in the table of tasks determines the address.
* `Minds.turn`: what a call, or a round of a task, keeps.
* `beats_of_turns`: which instances are kept alive after any calls, each by one task.
* `kept_alive_of_replaced`: an instance that is not ephemeral does not end this.
-/

namespace Discovery.Naming.Remote

/-- What a call has done about an address. -/
inductive Deed where
  /-- An instance was registered. -/
  | registered (service : String) (i : Instance)
  /-- The instance at an address was to go, whether or not a server was told. -/
  | deregistered (service ip : String) (port : UInt16)
deriving DecidableEq

namespace Deed

def isAt (service ip : String) (port : UInt16) : Deed → Bool
  | .registered s i => s == service && i.isAt ip port
  | .deregistered s ip' port' => s == service && (ip' == ip && port' == port)

theorem isAt_registered {s service ip : String} {i : Instance} {port : UInt16} :
    (registered s i).isAt service ip port = true ↔ s = service ∧ i.isAt ip port = true := by
  rw [isAt, Bool.and_eq_true, beq_iff_eq]

theorem isAt_deregistered {s service ip ip' : String} {port port' : UInt16} :
    (deregistered s ip' port').isAt service ip port = true ↔
      s = service ∧ ip' = ip ∧ port' = port := by
  rw [isAt, Bool.and_eq_true, Bool.and_eq_true, beq_iff_eq, beq_iff_eq, beq_iff_eq]

/-- Whether a deed has something kept alive, or kept alive no longer. -/
def beats : Deed → Bool
  | .registered _ i => i.ephemeral
  | .deregistered _ _ _ => true

def latest? (ds : List Deed) (service ip : String) (port : UInt16) : Option Deed :=
  (ds.filter (·.isAt service ip port)).getLast?

/-- The instance that a deed has kept alive. -/
def alive? : Deed → Option Instance
  | .registered s i => some { i with service := s }
  | .deregistered _ _ _ => none

/-- The instance at an address that is to be kept alive after some deeds. -/
def aliveAt? (ds : List Deed) (service ip : String) (port : UInt16) : Option Instance :=
  (latest? (ds.filter beats) service ip port).bind alive?

theorem latest?_append (ds : List Deed) (d : Deed) (service ip : String) (port : UInt16) :
    latest? (ds ++ [d]) service ip port =
      if d.isAt service ip port then some d else latest? ds service ip port := by
  unfold latest?
  rw [List.filter_append]
  by_cases hd : d.isAt service ip port = true
  · rw [if_pos hd, List.filter_cons_of_pos hd, List.filter_nil, List.getLast?_concat]
  · rw [if_neg hd, List.filter_cons_of_neg hd, List.filter_nil, List.append_nil]

/-- **The latest deed decides.** -/
theorem aliveAt?_append (ds : List Deed) (d : Deed) (service ip : String) (port : UInt16) :
    aliveAt? (ds ++ [d]) service ip port =
      if d.beats && d.isAt service ip port then d.alive? else aliveAt? ds service ip port := by
  unfold aliveAt?
  rw [List.filter_append]
  by_cases hb : d.beats = true
  · rw [List.filter_cons_of_pos hb, List.filter_nil, latest?_append, hb, Bool.true_and]
    split <;> rfl
  · rw [List.filter_cons_of_neg hb, List.filter_nil, List.append_nil, Bool.eq_false_iff.2 hb]
    rfl

theorem isAt_of_latest? {ds : List Deed} {d : Deed} {service ip : String} {port : UInt16}
    (h : latest? ds service ip port = some d) : d.isAt service ip port = true :=
  (List.mem_filter.1 (List.mem_of_getLast? h)).2

theorem isAt_of_aliveAt? {ds : List Deed} {i : Instance} {service ip : String} {port : UInt16}
    (h : aliveAt? ds service ip port = some i) : i.isAt ip port = true := by
  obtain ⟨d, hd, hi⟩ := Option.bind_eq_some_iff.1 h
  have hat := isAt_of_latest? hd
  cases d with
  | registered s j =>
    rw [← Option.some.inj hi]
    exact (isAt_registered.1 hat).2
  | deregistered s ip' port' => exact nomatch hi

/-- Something is to be kept alive if and only if the latest deed that decides it is a
registration. -/
theorem exists_aliveAt? {ds : List Deed} {service ip : String} {port : UInt16} :
    (∃ i, aliveAt? ds service ip port = some i) ↔
      ∃ i, latest? (ds.filter beats) service ip port = some (.registered service i) := by
  unfold aliveAt?
  constructor
  · rintro ⟨i, hi⟩
    obtain ⟨d, hd, hi⟩ := Option.bind_eq_some_iff.1 hi
    cases d with
    | registered s j =>
      obtain rfl : s = service := (isAt_registered.1 (isAt_of_latest? hd)).1
      exact ⟨j, hd⟩
    | deregistered s ip' port' => exact nomatch hi
  · rintro ⟨i, hi⟩
    exact ⟨_, by rw [hi]; rfl⟩

end Deed

def Job.beatsAt (service ip : String) (port : UInt16) : Job → Bool
  | .beat s i => s == service && i.isAt ip port
  | .poll _ _ => false

theorem Job.beatsAt_iff {service ip : String} {port : UInt16} {job : Job} :
    job.beatsAt service ip port = true ↔ ∃ i, job = .beat service i ∧ i.isAt ip port = true := by
  cases job with
  | beat s i =>
    simp only [Job.beatsAt, Bool.and_eq_true, beq_iff_eq, Job.beat.injEq]
    exact ⟨fun ⟨hs, hat⟩ => ⟨i, ⟨hs, rfl⟩, hat⟩, fun ⟨_, ⟨hs, hi⟩, hat⟩ => ⟨hs, hi ▸ hat⟩⟩
  | poll s last => exact ⟨nofun, fun ⟨_, he, _⟩ => nomatch he⟩

/-- What may happen to a client that does one thing at a time. -/
inductive Turn where
  /-- Somebody makes a request, which may come to anything. -/
  | ask (now : Nat) (network : Exchange → Answer) (q : Request)
  /-- The request of a task changes what is known of the servers. -/
  | link (k : Link)
  /-- The task that lists a service has found something. -/
  | found (service : String) (last : List Instance)

/-- The addresses have no mark in them that separates the parts of a name. -/
def Turn.Plain : Turn → Prop
  | .ask _ _ (.register _ i) => '#' ∉ i.ip.toList
  | .ask _ _ (.deregister _ ip _ _) => '#' ∉ ip.toList
  | _ => True

namespace Client

variable {c : Client} {service ip : String} {port : UInt16} {i : Instance} {ds : List Deed}
  {t : Turn} {ts : List Turn}

/-- What a turn does about an address: registrations count if they succeed. -/
def deeds (c : Client) : Turn → List Deed
  | .ask now network (.register service i) =>
    match (c.answer now network (.register service i)).reply with
    | some (.ok _) => [.registered service i]
    | _ => []
  | .ask _ _ (.deregister service ip port _) => [.deregistered service ip port]
  | _ => []

def turn (c : Client) : Turn → Client
  | .ask now network q => (c.answer now network q).client
  | .link k => { c with link := k }
  | .found service last => c.found service last

def turns (c : Client) (ds : List Deed) (ts : List Turn) : Client × List Deed :=
  ts.foldl (fun s t => (s.1.turn t, s.2 ++ s.1.deeds t)) (c, ds)

/-! ### Names of addresses -/

theorem toList_beatKey (service ip : String) (port : UInt16) :
    (beatKey service ip port).toList =
      (service.toList ++ '#' :: ip.toList) ++ '#' :: (portText port).toList := by
  simp [beatKey, String.toList_append]

theorem hash_not_mem_portText (port : UInt16) : '#' ∉ (portText port).toList :=
  Decimal.not_mem_digitsText (by decide) _

/-- **The name of an address determines the address.** -/
theorem beatKey_inj {service' ip' : String} {port' : UInt16} (hip : '#' ∉ ip.toList)
    (hip' : '#' ∉ ip'.toList) (h : beatKey service ip port = beatKey service' ip' port') :
    service = service' ∧ ip = ip' ∧ port = port' := by
  have hlist := congrArg String.toList h
  rw [toList_beatKey, toList_beatKey] at hlist
  obtain ⟨hfront, hport⟩ := Text.eq_of_append_cons_last (hash_not_mem_portText _)
    (hash_not_mem_portText _) hlist
  obtain ⟨hservice, hip⟩ := Text.eq_of_append_cons_last hip hip' hfront
  exact ⟨String.toList_inj.1 hservice, String.toList_inj.1 hip,
    UInt16.toNat_inj.1 (Decimal.digitsText_inj hport)⟩

/-! ### Tasks that keep instances alive -/

/-- A task of the client keeps an instance alive. -/
def Beats (c : Client) (service : String) (i : Instance) : Prop :=
  ∃ id, (⟨id, .beat service i⟩ : Task) ∈ c.tasks

/-- The instances that are kept alive have plain addresses. -/
def PlainBeats (c : Client) : Prop :=
  ∀ service i, c.Beats service i → '#' ∉ i.ip.toList

/-- **Nothing is kept alive any longer at one address**, and elsewhere nothing changes. -/
theorem Kept.beats_stopped (h : c.Kept) (hplain : c.PlainBeats) (hip : '#' ∉ ip.toList)
    (s : String) (j : Instance) :
    (∃ id, (⟨id, .beat s j⟩ : Task) ∈ without c.tasks (c.beats.get? (beatKey service ip port))) ↔
      c.Beats s j ∧ ¬ (service = s ∧ j.isAt ip port = true) := by
  have hkey : ∀ id, (⟨id, .beat s j⟩ : Task) ∈ c.tasks →
      (some id = c.beats.get? (beatKey service ip port) ↔
        service = s ∧ j.isAt ip port = true) := by
    intro id hmem
    have hown := (h.beats _ id).2 ⟨_, hmem, rfl⟩
    constructor
    · intro hid
      obtain ⟨job, hmem', hjob⟩ := (h.beats _ id).1 hid.symm
      obtain rfl : Job.beat s j = job := congrArg Task.job (h.numbered.eq_of_id hmem hmem' rfl)
      obtain ⟨rfl, rfl, rfl⟩ := beatKey_inj (hplain _ _ ⟨id, hmem⟩) hip (Option.some.inj hjob)
      exact ⟨rfl, j.isAt_self⟩
    · rintro ⟨rfl, hat⟩
      obtain ⟨rfl, rfl⟩ := Instance.isAt_iff.1 hat
      exact hown.symm
  simp only [mem_without]
  constructor
  · rintro ⟨id, hmem, hne⟩
    exact ⟨⟨id, hmem⟩, fun hat => hne ((hkey id hmem).2 hat)⟩
  · rintro ⟨⟨id, hmem⟩, hat⟩
    exact ⟨id, hmem, fun he => hat ((hkey id hmem).1 he)⟩

theorem Kept.beats_stopBeat (h : c.Kept) (hplain : c.PlainBeats) (hip : '#' ∉ ip.toList)
    (s : String) (j : Instance) : (c.stopBeat service ip port).Beats s j ↔
      c.Beats s j ∧ ¬ (service = s ∧ j.isAt ip port = true) := by
  rw [stopBeat_eq]
  exact h.beats_stopped hplain hip s j

/-- **An instance is kept alive in the stead of the one at its address.** -/
theorem Kept.beats_startBeat (h : c.Kept) (hplain : c.PlainBeats) (hip : '#' ∉ i.ip.toList)
    (s : String) (j : Instance) : (c.startBeat service i).Beats s j ↔
      (service = s ∧ i = j) ∨
        c.Beats s j ∧ ¬ (service = s ∧ j.isAt i.ip i.port = true) := by
  have htasks : (c.startBeat service i).tasks =
      without c.tasks (c.beats.get? (beatKey service i.ip i.port)) ++
        [⟨c.nextTask, .beat service i⟩] := by
    rw [startBeat_eq]
    exact without_spawn h.beats h.numbered _ _
  unfold Beats
  rw [htasks]
  simp only [List.mem_append, List.mem_singleton, Task.mk.injEq, Job.beat.injEq, exists_or]
  rw [h.beats_stopped hplain hip s j, or_comm]
  refine or_congr ?_ .rfl
  constructor
  · rintro ⟨id, _, rfl, rfl⟩
    exact ⟨rfl, rfl⟩
  · rintro ⟨rfl, rfl⟩
    exact ⟨_, rfl, rfl, rfl⟩

theorem beats_subscribe (c : Client) (service : String) (l : Listener) (s : String)
    (j : Instance) : (c.subscribe service l).Beats s j ↔ c.Beats s j := by
  unfold Beats Client.subscribe
  dsimp only
  split
  · exact .rfl
  · refine exists_congr fun id => ?_
    show _ ∈ c.tasks ++ [_] ↔ _
    rw [List.mem_append, List.mem_singleton]
    exact ⟨fun hmem => hmem.resolve_right fun he => (by cases he), .inl⟩

theorem Kept.beats_unsubscribe (h : c.Kept) (service : String) (l : Listener) (s : String)
    (j : Instance) : (c.unsubscribe service l).Beats s j ↔ c.Beats s j := by
  unfold Beats Client.unsubscribe
  dsimp only
  split
  · refine exists_congr fun id => ?_
    rw [abort?_eq]
    show _ ∈ without c.tasks (c.pollers.get? service) ↔ _
    rw [mem_without]
    refine ⟨And.left, fun hmem => ⟨hmem, fun hid => ?_⟩⟩
    obtain ⟨job, hmem', hjob⟩ := (h.pollers service id).1 hid.symm
    obtain rfl : Job.beat s j = job := congrArg Task.job (h.numbered.eq_of_id hmem hmem' rfl)
    exact nomatch hjob
  · exact .rfl

theorem Kept.beats_found (h : c.Kept) (service : String) (last : List Instance) (s : String)
    (j : Instance) : (c.found service last).Beats s j ↔ c.Beats s j := by
  unfold Client.found
  cases hid : c.pollers.get? service with
  | none => exact .rfl
  | some id =>
    refine exists_congr fun id' => ?_
    show _ ∈ c.tasks.map _ ↔ _
    rw [List.mem_map]
    constructor
    · rintro ⟨x, hx, he⟩
      split at he
      · cases he
      · exact he ▸ hx
    · intro hmem
      refine ⟨_, hmem, if_neg fun he => ?_⟩
      exact nomatch (h.job_of_remember hid hmem he).1

/-! ### Turns -/

/-- **A registration counts if it succeeds**, and then an ephemeral instance is kept alive. -/
theorem answer_register (c : Client) (now : Nat) (network : Exchange → Answer) (service : String)
    (i : Instance) : ∃ k : Link,
      (c.deeds (.ask now network (.register service i)) = [] ∧
        (c.answer now network (.register service i)).client = { c with link := k }) ∨
      (c.deeds (.ask now network (.register service i)) = [.registered service i] ∧
        (c.answer now network (.register service i)).client =
          ({ c with link := k } : Client).registered service i true) := by
  rcases hrun : c.link.run c.settings now network (registerQuery service i) with
    ⟨k, result, log⟩
  refine ⟨k, ?_⟩
  rcases result with _ | (t | body)
  · exact .inl (by simp [deeds, answer, query, hrun])
  · exact .inl (by simp [deeds, answer, query, hrun, registered])
  · exact .inr (by simp [deeds, answer, query, hrun])

theorem answer_deregister (c : Client) (now : Nat) (network : Exchange → Answer)
    (service ip : String) (port : UInt16) (ephemeral : Bool) : ∃ k,
      (c.answer now network (.deregister service ip port ephemeral)).client =
        { c.stopBeat service ip port with link := k } := by
  dsimp only [answer, query]
  cases ((c.stopBeat service ip port).link.run (c.stopBeat service ip port).settings now network
    (deregisterQuery service ip port ephemeral)).result with
  | none => exact ⟨_, rfl⟩
  | some r => cases r <;> exact ⟨_, rfl⟩

/-- **The tasks keep alive what the deeds say**, and the tables are in order. -/
structure Minds (c : Client) (ds : List Deed) : Prop where
  kept : c.Kept
  plain : c.PlainBeats
  alive : ∀ service i, '#' ∉ i.ip.toList →
    (c.Beats service i ↔ Deed.aliveAt? ds service i.ip i.port = some i)

theorem Minds.link (h : c.Minds ds) (k : Link) : ({ c with link := k } : Client).Minds ds :=
  ⟨⟨h.kept.numbered, h.kept.beats, h.kept.pollers⟩, h.plain, h.alive⟩

/-- **An ephemeral instance is registered**, and kept alive in the stead of what was there. -/
theorem Minds.startBeat (h : c.Minds ds) (hip : '#' ∉ i.ip.toList) (he : i.ephemeral = true) :
    (c.startBeat service { i with service }).Minds (ds ++ [.registered service i]) := by
  have hbeats : ∀ s j, (c.startBeat service { i with service }).Beats s j ↔
      (service = s ∧ { i with service } = j) ∨
        c.Beats s j ∧ ¬ (service = s ∧ j.isAt i.ip i.port = true) :=
    h.kept.beats_startBeat h.plain hip
  refine ⟨h.kept.startBeat _ _, fun s j hj => ?_, fun s j hj => ?_⟩
  · rcases (hbeats s j).1 hj with ⟨-, rfl⟩ | ⟨hold, -⟩
    · exact hip
    · exact h.plain s j hold
  · rw [hbeats s j, h.alive s j hj, i.isAt_comm j, Deed.aliveAt?_append,
      show Deed.beats (.registered service i) = true from he, Bool.true_and]
    by_cases hat : service = s ∧ i.isAt j.ip j.port = true
    · rw [if_pos (Deed.isAt_registered.2 hat), Deed.alive?, Option.some.injEq]
      exact ⟨fun hor => (hor.resolve_right fun hr => hr.2 hat).2, fun hi => .inl ⟨hat.1, hi⟩⟩
    · rw [if_neg (hat ∘ Deed.isAt_registered.1)]
      refine ⟨fun hor => (hor.resolve_left ?_).1, fun ha => .inr ⟨ha, hat⟩⟩
      rintro ⟨rfl, rfl⟩
      exact hat ⟨rfl, Instance.isAt_self _⟩

/-- **What a registration keeps.**  It ends what was kept alive at the address only if it has
something to keep alive in its stead. -/
theorem Minds.registered (h : c.Minds ds) (hip : '#' ∉ i.ip.toList) :
    (c.registered service i true).Minds (ds ++ [.registered service i]) := by
  unfold Client.registered
  rw [Bool.true_and]
  by_cases he : i.ephemeral = true
  · rw [if_pos he]
    exact h.startBeat hip he
  · rw [if_neg he]
    refine ⟨h.kept, h.plain, fun s j hj => ?_⟩
    rw [h.alive s j hj, Deed.aliveAt?_append,
      show Deed.beats (.registered service i) = false from Bool.eq_false_iff.2 he]
    exact .rfl

/-- **Nothing is kept alive** at an address from which the instance was to go. -/
theorem Minds.stopBeat (h : c.Minds ds) (hip : '#' ∉ ip.toList) :
    (c.stopBeat service ip port).Minds (ds ++ [.deregistered service ip port]) := by
  have hbeats : ∀ s j, (c.stopBeat service ip port).Beats s j ↔
      c.Beats s j ∧ ¬ (service = s ∧ j.isAt ip port = true) :=
    h.kept.beats_stopBeat h.plain hip
  refine ⟨h.kept.stopBeat _ _ _, fun s j hj => h.plain s j ((hbeats s j).1 hj).1,
    fun s j hj => ?_⟩
  rw [hbeats s j, h.alive s j hj, Deed.aliveAt?_append,
    show Deed.beats (.deregistered service ip port) = true from rfl, Bool.true_and]
  have hat : (Deed.deregistered service ip port).isAt s j.ip j.port = true ↔
      service = s ∧ j.isAt ip port = true := by
    rw [Deed.isAt_deregistered, Instance.isAt_iff]
    exact and_congr_right fun _ => and_congr eq_comm eq_comm
  by_cases hthere : service = s ∧ j.isAt ip port = true
  · rw [if_pos (hat.2 hthere)]
    exact iff_of_false (fun hr => hr.2 hthere) (Option.some_ne_none j).symm
  · rw [if_neg (hthere ∘ hat.1)]
    exact ⟨And.left, fun ha => ⟨ha, hthere⟩⟩

theorem Minds.of_beats {c' : Client} (h : c.Minds ds) (hkept : c'.Kept)
    (hbeats : ∀ s j, c'.Beats s j ↔ c.Beats s j) : c'.Minds ds :=
  ⟨hkept, fun s j hj => h.plain s j ((hbeats s j).1 hj),
    fun s j hj => (hbeats s j).trans (h.alive s j hj)⟩

/-- **What a turn keeps.** -/
theorem Minds.turn (h : c.Minds ds) (ht : t.Plain) : (c.turn t).Minds (ds ++ c.deeds t) := by
  cases t with
  | ask now network q =>
    cases q with
    | register service i =>
      obtain ⟨k, ⟨hdeeds, hclient⟩ | ⟨hdeeds, hclient⟩⟩ := c.answer_register now network service i
      · simp only [Client.turn, hdeeds, hclient, List.append_nil]
        exact h.link k
      · simp only [Client.turn, hdeeds, hclient]
        exact (h.link k).registered ht
    | deregister service ip port ephemeral =>
      obtain ⟨k, hclient⟩ := c.answer_deregister now network service ip port ephemeral
      simp only [Client.turn, hclient]
      exact (h.stopBeat ht).link k
    | subscribe service l =>
      simp only [Client.turn, deeds, List.append_nil]
      exact h.of_beats (h.kept.subscribe service l) (c.beats_subscribe service l)
    | unsubscribe service l =>
      simp only [Client.turn, deeds, List.append_nil]
      exact h.of_beats (h.kept.unsubscribe service l) (h.kept.beats_unsubscribe service l)
  | link k =>
    simp only [Client.turn, deeds, List.append_nil]
    exact h.link k
  | found service last =>
    simp only [Client.turn, deeds, List.append_nil]
    exact h.of_beats (h.kept.found service last) (h.kept.beats_found service last)

theorem Minds.turns (h : c.Minds ds) (hts : ∀ t ∈ ts, t.Plain) :
    (c.turns ds ts).1.Minds (c.turns ds ts).2 := by
  induction ts generalizing c ds with
  | nil => exact h
  | cons t ts ih =>
    exact ih (h.turn (hts t List.mem_cons_self)) fun t ht => hts t (List.mem_cons_of_mem _ ht)

theorem minds_ofSettings? {s : Settings} (hc : ofSettings? s = some c) : c.Minds [] := by
  have hnone : ∀ service i, ¬ c.Beats service i := by
    rintro service i ⟨id, hmem⟩
    rw [eq_of_ofSettings? hc] at hmem
    exact absurd hmem List.not_mem_nil
  exact ⟨kept_ofSettings? hc, fun s j hj => absurd hj (hnone s j),
    fun s j _ => iff_of_false (hnone s j) nofun⟩

/-! ### What keeps an address alive -/

/-- **No two tasks keep alive what is at one address.** -/
theorem Kept.eq_of_beatsAt (h : c.Kept) {x y : Task} (hx : x ∈ c.tasks) (hy : y ∈ c.tasks)
    (hxat : x.job.beatsAt service ip port = true) (hyat : y.job.beatsAt service ip port = true) :
    x = y := by
  have hid : ∀ z ∈ c.tasks, z.job.beatsAt service ip port = true →
      c.beats.get? (beatKey service ip port) = some z.id := by
    intro z hz hat
    obtain ⟨i, hjob, hi⟩ := Job.beatsAt_iff.1 hat
    obtain ⟨rfl, rfl⟩ := Instance.isAt_iff.1 hi
    exact (h.beats _ z.id).2 ⟨z.job, hz, by rw [hjob]; rfl⟩
  exact h.numbered.eq_of_id hx hy
    (Option.some.inj ((hid x hx hxat).symm.trans (hid y hy hyat)))

theorem Kept.filter_beatsAt (h : c.Kept) (service ip : String) (port : UInt16) :
    c.tasks.filter (·.job.beatsAt service ip port) =
      (c.tasks.find? (·.job.beatsAt service ip port)).toList := by
  have hnodup : (c.tasks.filter (·.job.beatsAt service ip port)).Nodup :=
    (List.Nodup.of_map _ h.numbered.nodup).filter _
  have hone : ∀ x ∈ c.tasks.filter (·.job.beatsAt service ip port),
      ∀ y ∈ c.tasks.filter (·.job.beatsAt service ip port), x = y := fun x hx y hy =>
    h.eq_of_beatsAt (List.mem_filter.1 hx).1 (List.mem_filter.1 hy).1 (List.mem_filter.1 hx).2
      (List.mem_filter.1 hy).2
  rw [← List.head?_filter]
  generalize c.tasks.filter (·.job.beatsAt service ip port) = l at hnodup hone
  rcases l with _ | ⟨x, _ | ⟨y, l⟩⟩
  · rfl
  · rfl
  · exact absurd (hone x List.mem_cons_self y (by simp))
      fun he => (List.nodup_cons.1 hnodup).1 (he ▸ List.mem_cons_self)

theorem Minds.beats_iff (h : c.Minds ds) (hip : '#' ∉ ip.toList) :
    c.Beats service i ∧ i.isAt ip port = true ↔ Deed.aliveAt? ds service ip port = some i := by
  constructor
  · rintro ⟨hbeats, hat⟩
    obtain ⟨rfl, rfl⟩ := Instance.isAt_iff.1 hat
    exact (h.alive service i hip).1 hbeats
  · intro ha
    obtain ⟨rfl, rfl⟩ := Instance.isAt_iff.1 (Deed.isAt_of_aliveAt? ha)
    exact ⟨(h.alive service i hip).2 ha, Instance.isAt_self _⟩

/-- **The table has an address if and only if what is there is to be kept alive.** -/
theorem Minds.hasBeat_iff (h : c.Minds ds) (hip : '#' ∉ ip.toList) :
    c.hasBeat service ip port = true ↔ ∃ i, Deed.aliveAt? ds service ip port = some i := by
  unfold hasBeat
  rw [Table.contains, Option.isSome_iff_exists]
  simp only [← h.beats_iff hip]
  constructor
  · rintro ⟨id, hid⟩
    obtain ⟨_ | _, hmem, hjob⟩ := (h.kept.beats _ id).1 hid
    · obtain ⟨rfl, rfl, rfl⟩ := beatKey_inj (h.plain _ _ ⟨id, hmem⟩) hip (Option.some.inj hjob)
      exact ⟨_, ⟨id, hmem⟩, Instance.isAt_self _⟩
    · cases hjob
  · rintro ⟨i, ⟨id, hmem⟩, hat⟩
    obtain ⟨rfl, rfl⟩ := Instance.isAt_iff.1 hat
    exact ⟨id, (h.kept.beats _ id).2 ⟨_, hmem, rfl⟩⟩

/-- **One task keeps alive what is at an address** if it is to be kept alive, and otherwise
none does. -/
theorem Minds.map_filter_beatsAt (h : c.Minds ds) (hip : '#' ∉ ip.toList) :
    (c.tasks.filter (·.job.beatsAt service ip port)).map Task.job =
      (Deed.aliveAt? ds service ip port).toList.map (.beat service) := by
  rw [h.kept.filter_beatsAt]
  cases ha : Deed.aliveAt? ds service ip port with
  | none =>
    have hnone : c.tasks.find? (·.job.beatsAt service ip port) = none := by
      refine List.find?_eq_none.2 fun x hx hat => ?_
      obtain ⟨i, hjob, hi⟩ := Job.beatsAt_iff.1 hat
      have hmem : (⟨x.id, .beat service i⟩ : Task) ∈ c.tasks := by rwa [← hjob]
      exact nomatch ha.symm.trans ((h.beats_iff hip).1 ⟨⟨x.id, hmem⟩, hi⟩)
    rw [hnone]
    rfl
  | some i =>
    obtain ⟨⟨id, hmem⟩, hat⟩ := (h.beats_iff hip).2 ha
    have hbeats : (Job.beat service i).beatsAt service ip port = true :=
      Job.beatsAt_iff.2 ⟨i, rfl, hat⟩
    have hsome : (c.tasks.find? (·.job.beatsAt service ip port)).isSome = true :=
      List.find?_isSome.2 ⟨_, hmem, hbeats⟩
    obtain ⟨x, hx⟩ := Option.isSome_iff_exists.1 hsome
    have hat : x.job.beatsAt service ip port = true := by simpa using List.find?_some hx
    rw [hx, h.kept.eq_of_beatsAt (List.mem_of_find?_eq_some hx) hmem hat hbeats]
    rfl

/-- **Which instances are kept alive.**  An address is kept alive if and only if the latest deed
about it is a registration, leaving out those of instances that are not ephemeral: these do not
end what was kept alive there before them.  What is kept alive, one task keeps alive. -/
theorem beats_of_turns {s : Settings} {c₀ : Client} (hc : ofSettings? s = some c₀)
    (hts : ∀ t ∈ ts, t.Plain) (hip : '#' ∉ ip.toList) :
    ((c₀.turns [] ts).1.hasBeat service ip port = true ↔
      ∃ i, Deed.latest? ((c₀.turns [] ts).2.filter Deed.beats) service ip port =
        some (.registered service i)) ∧
    ((c₀.turns [] ts).1.tasks.filter (·.job.beatsAt service ip port)).map Task.job =
      (Deed.aliveAt? (c₀.turns [] ts).2 service ip port).toList.map (.beat service) := by
  have h := (minds_ofSettings? hc).turns hts
  exact ⟨(h.hasBeat_iff hip).trans Deed.exists_aliveAt?, h.map_filter_beatsAt hip⟩

def oneServer : Settings :=
  { Settings.default with servers := ["http://a:8848"] }

/-- An ephemeral instance is registered, and then another one at its address. -/
def replacing (ephemeral : Bool) : List Turn :=
  [true, ephemeral].map fun e => .ask 0 (fun _ => .reply 200 (some "ok"))
    (.register "svc" { Instance.ofAddress "10.0.0.1" 8080 with ephemeral := e })

def replaced (ephemeral : Bool) : Client × List Deed :=
  ((ofSettings? oneServer).get rfl).turns [] (replacing ephemeral)

theorem plain_of_replacing {ephemeral : Bool} : ∀ t ∈ replacing ephemeral, t.Plain := by
  intro t ht
  obtain ⟨e, -, rfl⟩ := List.mem_map.1 ht
  show '#' ∉ "10.0.0.1".toList
  decide

/-- The second of two ephemeral instances is kept alive, by one task. -/
theorem beats_of_replaced : (∀ t ∈ replacing true, t.Plain) ∧ '#' ∉ "10.0.0.1".toList ∧
    (replaced true).1.hasBeat "svc" "10.0.0.1" 8080 = true ∧
    ((replaced true).1.tasks.filter (·.job.beatsAt "svc" "10.0.0.1" 8080)).map Task.job =
      [.beat "svc" { Instance.ofAddress "10.0.0.1" 8080 with service := "svc" }] := by
  have hip : '#' ∉ "10.0.0.1".toList := by decide
  have h := @beats_of_turns "svc" "10.0.0.1" 8080 (replacing true) oneServer _
    (Option.some_get rfl).symm plain_of_replacing hip
  have hlatest : Deed.latest? ((replaced true).2.filter Deed.beats) "svc" "10.0.0.1" 8080 =
      some (.registered "svc" (Instance.ofAddress "10.0.0.1" 8080)) := by
    decide +kernel
  have halive : Deed.aliveAt? (replaced true).2 "svc" "10.0.0.1" 8080 =
      some { Instance.ofAddress "10.0.0.1" 8080 with service := "svc" } := by
    decide +kernel
  refine ⟨plain_of_replacing, hip, h.1.2 ⟨_, hlatest⟩, h.2.trans ?_⟩
  rw [← replaced, halive]
  rfl

/-- **An instance that is not ephemeral does not end what was kept alive** at its address, though
it was registered there last. -/
theorem kept_alive_of_replaced : (∀ t ∈ replacing false, t.Plain) ∧
    ¬ ((replaced false).1.hasBeat "svc" "10.0.0.1" 8080 = true ↔
      ∃ i, Deed.latest? (replaced false).2 "svc" "10.0.0.1" 8080 = some (.registered "svc" i) ∧
        i.ephemeral = true) := by
  refine ⟨plain_of_replacing, fun h => ?_⟩
  obtain ⟨i, hi, he⟩ := h.1 (by decide +kernel)
  have hlast : Deed.latest? (replaced false).2 "svc" "10.0.0.1" 8080 =
      some (.registered "svc" { Instance.ofAddress "10.0.0.1" 8080 with ephemeral := false }) := by
    decide +kernel
  rw [hlast] at hi
  cases hi
  exact nomatch he

end Client

end Discovery.Naming.Remote
