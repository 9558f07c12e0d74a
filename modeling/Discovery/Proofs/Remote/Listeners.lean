import Discovery.Proofs.Naming.Provider
import Discovery.Proofs.Remote.Beats
import Discovery.Proofs.Remote.Polling
import Discovery.Proofs.Since

/-!
# Who listens, and what is listed for them

A remote client lists the instances of a service again and again while somebody listens to it.  The
task that does so publishes what it finds: who listens at that moment is called, one after the
other.  Meanwhile listeners may come and go, and the listener that is called may see to this itself;
the task may even be stopped.  This does not change who is called.

A `Feed` is a client, what its tasks have found, and the publications so far.

* `Indexes.map_filter`: the tasks of a name are the one in the table.
* `Client.Attends`: a service is listed if and only if somebody listens; `Attends.answer` and
  `Attends.remember` keep this so.
* `mem_step`: who listens after a step.
* `publication_step`: how far a publication has come after a step.
* `follows_of_run`: both, after any steps.
-/

namespace Discovery.Naming

variable {a : Audience} {service k : String} {l : Listener}

theorem Audience.nodup_add (h : ∀ k, (a.of k).Nodup) (service : String) (l : Listener)
    (k : String) : ((a.add service l).of k).Nodup := by
  rw [of_add]
  split
  · split
    · exact h service
    · next hl =>
      have hl : l ∉ a.of service := by simpa using hl
      exact List.nodup_append.2 ⟨h service, List.nodup_singleton l, by
        rintro x hx y hy rfl
        exact hl (List.mem_singleton.1 hy ▸ hx)⟩
  · exact h k

theorem Audience.nodup_remove (h : ∀ k, (a.of k).Nodup) (service : String) (l : Listener)
    (k : String) : ((a.remove service l).of k).Nodup := by
  rw [of_remove]
  split
  · exact (h service).filter _
  · exact h k

def Request.audienceAfter (a : Audience) : Request → Audience
  | .subscribe service l => a.add service l
  | .unsubscribe service l => a.remove service l
  | .register _ _ | .deregister _ _ _ _ => a

/-- **Who listens after a request**: one who subscribes, and all others but one who unsubscribes. -/
theorem Request.mem_audienceAfter {q : Request} : l ∈ (q.audienceAfter a).of k ↔
    q = .subscribe k l ∨ l ∈ a.of k ∧ q ≠ .unsubscribe k l := by
  cases q with
  | register service i => simp [audienceAfter]
  | deregister service ip port ephemeral => simp [audienceAfter]
  | subscribe service l' =>
    rw [audienceAfter, Audience.of_add]
    by_cases hk : k = service
    · subst hk
      rw [if_pos rfl]
      by_cases hl : (a.of k).contains l'
      · rw [if_pos hl]
        refine ⟨fun h => .inr ⟨h, nofun⟩, ?_⟩
        rintro (h | h)
        · rw [← (Request.subscribe.inj h).2]
          exact List.contains_iff_mem.1 hl
        · exact h.1
      · rw [if_neg hl, List.mem_append, List.mem_singleton]
        refine ⟨?_, ?_⟩
        · rintro (h | rfl)
          · exact .inr ⟨h, nofun⟩
          · exact .inl rfl
        · rintro (h | h)
          · exact .inr (Request.subscribe.inj h).2.symm
          · exact .inl h.1
    · simp [hk, Ne.symm hk]
  | unsubscribe service l' =>
    rw [audienceAfter, Audience.of_remove]
    by_cases hk : k = service
    · subst hk
      rw [if_pos rfl, List.mem_filter, bne_iff_ne]
      refine ⟨fun ⟨h, hne⟩ => .inr ⟨h, fun he => hne (Request.unsubscribe.inj he).2.symm⟩, ?_⟩
      rintro (h | ⟨h, hne⟩)
      · exact nomatch h
      · exact ⟨h, fun he => hne (he ▸ rfl)⟩
    · simp [hk, Ne.symm hk]

namespace Remote

variable {name : Job → Option String} {tasks : List Task} {t : Table Nat} {next : Nat}

/-- **The tasks of a name are the one in the table**, if there is one. -/
theorem Indexes.map_filter (h : Indexes name tasks t) (hn : Numbered tasks next) (key : String) :
    (tasks.filter (name ·.job == some key)).map Task.id = (t.get? key).toList := by
  have hmem : ∀ id, id ∈ (tasks.filter (name ·.job == some key)).map Task.id ↔
      id ∈ (t.get? key).toList := by
    intro id
    rw [Option.mem_toList, h key id, List.mem_map]
    constructor
    · rintro ⟨x, hx, rfl⟩
      obtain ⟨hx, hname⟩ := List.mem_filter.1 hx
      exact ⟨x.job, hx, beq_iff_eq.1 hname⟩
    · rintro ⟨job, hx, hname⟩
      exact ⟨_, List.mem_filter.2 ⟨hx, beq_iff_eq.2 hname⟩, rfl⟩
  have hnodup : ((tasks.filter (name ·.job == some key)).map Task.id).Nodup :=
    (List.filter_sublist.map _).nodup hn.nodup
  cases hk : t.get? key with
  | none =>
    rw [hk] at hmem
    exact List.eq_nil_iff_forall_not_mem.2 fun id hid => List.not_mem_nil ((hmem id).1 hid)
  | some id =>
    rw [hk] at hmem
    exact List.perm_singleton.1
      ((List.perm_ext_iff_of_nodup hnodup (List.nodup_singleton id)).2 hmem)

namespace Client

variable {c c' : Client}

/-! ### What a request changes -/

theorem audience_answer (c : Client) (now : Nat) (network : Exchange → Answer) (q : Request) :
    (c.answer now network q).client.audience = q.audienceAfter c.audience := by
  cases q with
  | register service i => exact provider.audience_other c (now, network) _ rfl
  | deregister service ip port ephemeral => exact provider.audience_other c (now, network) _ rfl
  | subscribe service l => exact provider.audience_subscribe c (now, network) service l
  | unsubscribe service l => exact provider.audience_unsubscribe c (now, network) service l

theorem audience_subscribe (c : Client) (service : String) (l : Listener) :
    (c.subscribe service l).audience = c.audience.add service l :=
  c.audience_answer 0 (fun _ => .dropped) (.subscribe service l)

theorem audience_unsubscribe (c : Client) (service : String) (l : Listener) :
    (c.unsubscribe service l).audience = c.audience.remove service l :=
  c.audience_answer 0 (fun _ => .dropped) (.unsubscribe service l)

/-- **A service that is subscribed to is listed**, and otherwise nothing changes. -/
theorem isPolling_subscribe (c : Client) (service : String) (l : Listener) (k : String) :
    (c.subscribe service l).isPolling k = true ↔ k = service ∨ c.isPolling k = true := by
  unfold subscribe
  dsimp only
  split
  · next hpolling =>
    refine ⟨.inr, fun h => h.elim (fun hk => ?_) id⟩
    rw [hk]
    exact hpolling
  · show ((c.pollers.insert service c.nextTask).get? k).isSome = true ↔ _
    rw [Table.get?_insert]
    by_cases hk : k = service
    · simp [hk]
    · rw [if_neg hk]
      exact ⟨.inr, fun h => h.resolve_left hk⟩

/-- **A service to which nobody listens any longer is not listed**, and otherwise nothing
changes. -/
theorem isPolling_unsubscribe (c : Client) (service : String) (l : Listener) (k : String) :
    (c.unsubscribe service l).isPolling k = true ↔ c.isPolling k = true ∧
      ¬ (k = service ∧ (c.audience.remove service l).of service = []) := by
  unfold unsubscribe
  dsimp only
  split
  · next hempty =>
    rw [abort?_eq]
    show ((c.pollers.erase service).get? k).isSome = true ↔ _
    rw [Table.get?_erase]
    by_cases hk : k = service
    · simp [hk, List.isEmpty_iff.1 hempty]
    · rw [if_neg hk]
      exact ⟨fun h => ⟨h, fun hc => hk hc.1⟩, And.left⟩
  · next hempty =>
    exact ⟨fun h => ⟨h, fun hc => hempty (List.isEmpty_iff.2 hc.2)⟩, And.left⟩

/-- **The listeners are in step with the tasks**: a service is listed if and only if somebody
listens to it, nobody listens to it twice, and the tables of tasks are in order. -/
structure Attends (c : Client) : Prop where
  kept : c.Kept
  polling : ∀ service, c.isPolling service = true ↔ c.audience.of service ≠ []
  nodup : ∀ service, (c.audience.of service).Nodup

theorem attends_ofSettings? {s : Settings} (hc : ofSettings? s = some c) : c.Attends := by
  have hkept := kept_ofSettings? hc
  obtain rfl := eq_of_ofSettings? hc
  exact ⟨hkept, fun service => iff_of_false nofun fun h => h rfl, fun service => List.nodup_nil⟩

theorem Attends.of_eq (h : c.Attends) (hkept : c'.Kept) (hpollers : c'.pollers = c.pollers)
    (haudience : c'.audience = c.audience) : c'.Attends := by
  refine ⟨hkept, fun service => ?_, fun service => haudience ▸ h.nodup service⟩
  rw [isPolling, hpollers, haudience]
  exact h.polling service

theorem Attends.link (h : c.Attends) (k : Link) : ({ c with link := k } : Client).Attends :=
  h.of_eq ⟨h.kept.numbered, h.kept.beats, h.kept.pollers⟩ rfl rfl

theorem Attends.subscribe (h : c.Attends) (service : String) (l : Listener) :
    (c.subscribe service l).Attends := by
  refine ⟨h.kept.subscribe service l, fun k => ?_, fun k => ?_⟩
  · rw [isPolling_subscribe, audience_subscribe, h.polling, Audience.of_add]
    by_cases hk : k = service
    · subst hk
      refine iff_of_true (.inl rfl) ?_
      rw [if_pos rfl]
      split
      · next hl => exact List.ne_nil_of_mem (List.contains_iff_mem.1 hl)
      · exact List.concat_ne_nil _ _
    · rw [if_neg hk]
      exact ⟨fun hor => hor.resolve_left hk, .inr⟩
  · rw [audience_subscribe]
    exact Audience.nodup_add h.nodup service l k

theorem Attends.unsubscribe (h : c.Attends) (service : String) (l : Listener) :
    (c.unsubscribe service l).Attends := by
  refine ⟨h.kept.unsubscribe service l, fun k => ?_, fun k => ?_⟩
  · rw [isPolling_unsubscribe, audience_unsubscribe, h.polling]
    by_cases hk : k = service
    · subst hk
      rw [Audience.of_remove, if_pos rfl]
      refine ⟨fun hleft hnil => hleft.2 ⟨rfl, hnil⟩, fun hleft => ⟨fun hnil => ?_, fun hnil => ?_⟩⟩
      · rw [hnil] at hleft
        exact hleft rfl
      · exact hleft hnil.2
    · have hother : (c.audience.remove service l).of k = c.audience.of k := by
        rw [Audience.of_remove, if_neg hk]
      rw [hother]
      exact ⟨And.left, fun hleft => ⟨hleft, fun hc => hk hc.1⟩⟩
  · rw [audience_unsubscribe]
    exact Audience.nodup_remove h.nodup service l k

theorem Attends.registered (h : c.Attends) (service : String) (i : Instance) :
    (c.registered service i true).Attends := by
  unfold Client.registered
  split
  · refine h.of_eq (h.kept.startBeat _ _) ?_ ?_ <;> rw [startBeat_eq]
  · exact h

theorem Attends.stopBeat (h : c.Attends) (service ip : String) (port : UInt16) :
    (c.stopBeat service ip port).Attends := by
  refine h.of_eq (h.kept.stopBeat _ _ _) ?_ ?_ <;> rw [stopBeat_eq]

/-- **What a request keeps.** -/
theorem Attends.answer (h : c.Attends) (now : Nat) (network : Exchange → Answer) (q : Request) :
    (c.answer now network q).client.Attends := by
  cases q with
  | register service i =>
    obtain ⟨k, ⟨_, hclient⟩ | ⟨_, hclient⟩⟩ := c.answer_register now network service i
    · rw [hclient]
      exact h.link k
    · rw [hclient]
      exact (h.link k).registered service i
  | deregister service ip port ephemeral =>
    obtain ⟨k, hclient⟩ := c.answer_deregister now network service ip port ephemeral
    rw [hclient]
    exact (h.stopBeat service ip port).link k
  | subscribe service l => exact h.subscribe service l
  | unsubscribe service l => exact h.unsubscribe service l

/-- **What a round of a task keeps.** -/
theorem Attends.remember (h : c.Attends) {id : Nat} {service : String} {last : List Instance}
    (hmem : (⟨id, .poll service last⟩ : Task) ∈ c.tasks) (found : List Instance) :
    (c.remember id service found).Attends := by
  have hkept := h.kept.found service found
  rw [Client.found, (h.kept.pollers service id).2 ⟨_, hmem, rfl⟩] at hkept
  exact h.of_eq hkept rfl rfl

/-- **How a service stands with its listeners**: it is listed if and only if somebody listens to
it, and then by one task; nobody listens to it twice. -/
structure Follows (c : Client) (service : String) : Prop where
  polling : c.isPolling service = true ↔ c.audience.of service ≠ []
  tasks : (c.tasks.filter (·.job.polled? == some service)).length =
    if c.isPolling service then 1 else 0
  nodup : (c.audience.of service).Nodup

theorem Attends.follows (h : c.Attends) (service : String) : c.Follows service := by
  refine ⟨h.polling service, ?_, h.nodup service⟩
  rw [← List.length_map Task.id, h.kept.pollers.map_filter h.kept.numbered, isPolling,
    Table.contains]
  cases c.pollers.get? service <;> rfl

end Client

/-! ### Publications -/

/-- Word of an event: the calls of listeners that were made, and those that are owed. -/
structure Publication where
  made : List Delivery
  owed : List Delivery
deriving DecidableEq, Repr

def Publication.after (ds : List Delivery) (k : Nat) : Publication :=
  ⟨ds.take k, ds.drop k⟩

theorem Publication.after_eq {ds owed made : List Delivery} {k : Nat} {d : Delivery}
    (h : Publication.after ds k = ⟨made, d :: owed⟩) :
    k < ds.length ∧ made ++ [d] = ds.take (k + 1) ∧ owed = ds.drop (k + 1) := by
  obtain ⟨rfl, howed⟩ := Publication.mk.inj h
  have hlt : k < ds.length := by
    rw [← Nat.sub_pos_iff_lt, ← List.length_drop, howed]
    exact Nat.zero_lt_succ _
  rw [List.drop_eq_getElem_cons hlt] at howed
  obtain ⟨rfl, rfl⟩ := List.cons.inj howed
  exact ⟨hlt, List.take_append_getElem hlt, rfl⟩

/-- A client, the events that its tasks have found and are about to publish, and the publications
so far, in the order in which they began. -/
structure Feed where
  client : Client
  found : List Event
  publications : List Publication

namespace Feed

/-- What may happen next.  Who publishes waits for nothing, so a task that is stopped meanwhile goes
on until everybody has been told. -/
inductive Step where
  /-- Somebody makes a request, perhaps a listener while it is called. -/
  | ask (now : Nat) (network : Exchange → Answer) (q : Request)
  /-- A round of a task comes to `r`, and `k` is what is known of the servers then. -/
  | round (task : Nat) (k : Link) (r : Except Trouble String)
  /-- A task begins to publish what it has found. -/
  | publish (n : Nat)
  /-- The next listener of a publication is called. -/
  | tell (n : Nat)

def begin (c : Client) : Feed :=
  ⟨c, [], []⟩

/-- **One step**, if it is possible. -/
def step (f : Feed) : Step → Option Feed
  | .ask now network q => some { f with client := (f.client.answer now network q).client }
  | .round task k r =>
    match f.client.tasks.find? (·.id == task) with
    | some ⟨id, .poll service last⟩ =>
      let (last, event, _) := Client.pollRound service last r
      some { f with
        client := { f.client.remember id service last with link := k }
        found := f.found ++ event.toList }
    | _ => none
  | .publish n =>
    f.found[n]?.map fun e => { f with
      found := f.found.eraseIdx n
      publications := f.publications ++ [⟨[], f.client.audience.publish e⟩] }
  | .tell n =>
    match f.publications[n]? with
    | some ⟨made, d :: owed⟩ =>
      some { f with publications := f.publications.set n ⟨made ++ [d], owed⟩ }
    | _ => none

def run (f : Feed) (ms : List Step) : Option Feed :=
  ms.foldlM step f

def Step.request? : Step → Option Request
  | .ask _ _ q => some q
  | _ => none

def Step.tells (n : Nat) : Step → Bool
  | .tell n' => n' == n
  | _ => false

variable {f f' g : Feed} {m : Step} {ms after : List Step} {c : Client} {e : Event}
  {service : String} {l : Listener} {task n j k : Nat} {ds : List Delivery}

theorem run_append (f : Feed) (ms ms' : List Step) :
    f.run (ms ++ ms') = (f.run ms).bind fun g => g.run ms' :=
  List.foldlM_append

/-! ### One step -/

theorem step_round {link : Link} {r : Except Trouble String}
    (hs : f.step (.round task link r) = some f') : ∃ service last found,
      (⟨task, .poll service last⟩ : Task) ∈ f.client.tasks ∧
      f' = { f with
        client := { f.client.remember task service
          (Client.pollRound service last r).1 with link := link }
        found := f.found ++ found } := by
  simp only [step] at hs
  split at hs
  · next id service last hfind =>
    obtain rfl : id = task := by simpa using List.find?_some hfind
    exact ⟨service, last, _, List.mem_of_find?_eq_some hfind, (Option.some.inj hs).symm⟩
  · exact nomatch hs

theorem step_publish (hs : f.step (.publish n) = some f') : ∃ e, f.found[n]? = some e ∧
    f' = { f with
      found := f.found.eraseIdx n
      publications := f.publications ++ [.after (f.client.audience.publish e) 0] } := by
  obtain ⟨e, he, rfl⟩ := Option.map_eq_some_iff.1 hs
  exact ⟨e, he, rfl⟩

theorem step_tell : f.step (.tell n) = some f' ↔ ∃ made d owed,
    f.publications[n]? = some ⟨made, d :: owed⟩ ∧
      f' = { f with publications := f.publications.set n ⟨made ++ [d], owed⟩ } := by
  simp only [step]
  constructor
  · intro hs
    split at hs
    · next made d owed hp => exact ⟨made, d, owed, hp, (Option.some.inj hs).symm⟩
    · exact nomatch hs
  · rintro ⟨made, d, owed, hp, rfl⟩
    rw [hp]

/-- **What a step keeps.** -/
theorem attends_step (h : f.client.Attends) (hs : f.step m = some f') : f'.client.Attends := by
  cases m with
  | ask now network q =>
    rw [← Option.some.inj hs]
    exact h.answer now network q
  | round task link r =>
    obtain ⟨service, last, found, hmem, rfl⟩ := step_round hs
    exact (h.remember hmem _).link link
  | publish n =>
    obtain ⟨e, _, rfl⟩ := step_publish hs
    exact h
  | tell n =>
    obtain ⟨made, d, owed, _, rfl⟩ := step_tell.1 hs
    exact h

/-- **Who listens after a step**: only requests change this. -/
theorem mem_step (hs : f.step m = some f') :
    l ∈ f'.client.audience.of service ↔ m.request? = some (.subscribe service l) ∨
      l ∈ f.client.audience.of service ∧ m.request? ≠ some (.unsubscribe service l) := by
  cases m with
  | ask now network q =>
    rw [← Option.some.inj hs, Client.audience_answer, Request.mem_audienceAfter]
    simp [Step.request?]
  | round task link r =>
    obtain ⟨service, last, found, _, rfl⟩ := step_round hs
    simp [Step.request?, Client.remember]
  | publish n =>
    obtain ⟨e, _, rfl⟩ := step_publish hs
    simp [Step.request?]
  | tell n =>
    obtain ⟨made, d, owed, _, rfl⟩ := step_tell.1 hs
    simp [Step.request?]

/-- **How far a publication has come after a step**: nothing but its own calls changes it. -/
theorem publication_step (hs : f.step m = some f')
    (hp : f.publications[j]? = some (.after ds k)) (hk : k ≤ ds.length) :
    f'.publications[j]? = some (.after ds (k + if m.tells j then 1 else 0)) ∧
      (k + if m.tells j then 1 else 0) ≤ ds.length := by
  cases m with
  | ask now network q =>
    rw [← Option.some.inj hs]
    exact ⟨hp, hk⟩
  | round task link r =>
    obtain ⟨service, last, found, _, rfl⟩ := step_round hs
    exact ⟨hp, hk⟩
  | publish n =>
    obtain ⟨e, _, rfl⟩ := step_publish hs
    refine ⟨?_, hk⟩
    rw [List.getElem?_append_left (List.getElem?_eq_some_iff.1 hp).1]
    exact hp
  | tell n =>
    obtain ⟨made, d, owed, hn, rfl⟩ := step_tell.1 hs
    by_cases hnj : n = j
    · subst hnj
      obtain ⟨hlt, hmade, rfl⟩ := Publication.after_eq (Option.some.inj (hp.symm.trans hn))
      rw [show (Step.tell n).tells n = true from beq_self_eq_true n, if_pos rfl]
      refine ⟨?_, hlt⟩
      rw [List.getElem?_set_self (List.getElem?_eq_some_iff.1 hp).1, hmade]
      rfl
    · rw [show (Step.tell n).tells j = false from beq_false_of_ne hnj, if_neg Bool.false_ne_true]
      exact ⟨(List.getElem?_set_ne hnj).trans hp, hk⟩

/-! ### All steps -/

theorem attends_run (h : f.client.Attends) (hs : f.run ms = some f') : f'.client.Attends := by
  induction ms generalizing f with
  | nil => exact Option.some.inj hs ▸ h
  | cons m ms ih =>
    obtain ⟨g, hg, hs⟩ := Option.bind_eq_some_iff.1 hs
    exact ih (attends_step h hg) hs

/-- **Who listens after any steps**: who has subscribed and has not unsubscribed since. -/
theorem mem_run (hnone : ∀ k, f.client.audience.of k = [])
    (hs : f.run ms = some f') : l ∈ f'.client.audience.of service ↔
      Since (fun _ m => m.request? = some (.subscribe service l))
        (fun _ m => m.request? ≠ some (.unsubscribe service l)) ms := by
  induction ms using List.reverseRecOn generalizing f' with
  | nil =>
    rw [← Option.some.inj hs, hnone]
    exact iff_of_false List.not_mem_nil not_since_nil
  | append_singleton ms m ih =>
    rw [run_append] at hs
    obtain ⟨g, hg, hs⟩ := Option.bind_eq_some_iff.1 hs
    obtain ⟨g', hg', hs⟩ := Option.bind_eq_some_iff.1 hs
    obtain rfl := Option.some.inj hs
    rw [mem_step hg', ih hg, since_concat]

theorem publication_run (hs : f.run ms = some f')
    (hp : f.publications[j]? = some (.after ds k)) (hk : k ≤ ds.length) :
    f'.publications[j]? = some (.after ds (k + ms.countP (·.tells j))) ∧
      k + ms.countP (·.tells j) ≤ ds.length := by
  induction ms generalizing f k with
  | nil => exact Option.some.inj hs ▸ ⟨hp, hk⟩
  | cons m ms ih =>
    obtain ⟨g, hg, hs⟩ := Option.bind_eq_some_iff.1 hs
    obtain ⟨hp, hk⟩ := publication_step hg hp hk
    have hrest := ih hs hp hk
    rw [Nat.add_assoc] at hrest
    rw [List.countP_cons, Nat.add_comm (ms.countP _)]
    exact hrest

theorem isSome_step_tell (hp : f.publications[j]? = some (.after ds k)) :
    (f.step (.tell j)).isSome = true ↔ k < ds.length := by
  rw [Option.isSome_iff_exists]
  constructor
  · rintro ⟨f', hs⟩
    obtain ⟨made, d, owed, hn, -⟩ := step_tell.1 hs
    exact (Publication.after_eq (Option.some.inj (hp.symm.trans hn))).1
  · intro hlt
    rw [Publication.after, List.drop_eq_getElem_cons hlt] at hp
    exact ⟨_, step_tell.2 ⟨_, _, _, hp, rfl⟩⟩

/-- **What has become of a publication** of an event to `ls`, after a number of calls: the first of
them were called, each once and in order, the others are owed their calls, and it goes on until
there are none. -/
structure Reached (f : Feed) (j : Nat) (e : Event) (ls : List Listener) (calls : Nat) : Prop where
  publication : f.publications[j]? = some
    ⟨(ls.take calls).map (⟨·, e⟩), (ls.drop calls).map (⟨·, e⟩)⟩
  nodup : ls.Nodup
  le : calls ≤ ls.length
  next : (f.step (.tell j)).isSome = true ↔ calls < ls.length

theorem reached_run (h : g.client.Attends) (he : g.found[n]? = some e)
    (hs : g.run (.publish n :: after) = some f) :
    f.Reached g.publications.length e (g.client.audience.of e.service)
      (after.countP (·.tells g.publications.length)) := by
  obtain ⟨g', hg, hs⟩ := Option.bind_eq_some_iff.1 hs
  obtain ⟨e', he', rfl⟩ := step_publish hg
  obtain rfl := Option.some.inj (he.symm.trans he')
  obtain ⟨hp, hle⟩ := publication_run hs List.getElem?_concat_length (Nat.zero_le _)
  rw [Nat.zero_add] at hp hle
  have hnext := isSome_step_tell hp
  rw [Audience.publish, List.length_map] at hle hnext
  refine ⟨?_, h.nodup _, hle, hnext⟩
  rw [hp, Publication.after, Audience.publish, List.map_take, List.map_drop]

/-- **Services are listed for their listeners, and events reach them.**  After any requests of a new
client, in whatever order and also while listeners are called, each service is listed if and only if
somebody listens to it, and then by one task; its listeners are those who have subscribed and have
not unsubscribed since, each once.  An event that a task publishes reaches those who listened when
it began to, each once, whoever has come or gone since. -/
theorem follows_of_run {s : Settings} (hc : Client.ofSettings? s = some c)
    (hrun : (begin c).run ms = some f) :
    (∀ service, f.client.Follows service ∧ ∀ l, l ∈ f.client.audience.of service ↔
      Since (fun _ m => m.request? = some (.subscribe service l))
        (fun _ m => m.request? ≠ some (.unsubscribe service l)) ms) ∧
    ∀ {before after : List Step} {n : Nat} {g : Feed} {e : Event},
      ms = before ++ .publish n :: after → (begin c).run before = some g → g.found[n]? = some e →
      f.Reached g.publications.length e (g.client.audience.of e.service)
        (after.countP (·.tells g.publications.length)) := by
  have hattends : (begin c).client.Attends := Client.attends_ofSettings? hc
  have hnone : ∀ k, (begin c).client.audience.of k = [] := by
    rw [Client.eq_of_ofSettings? hc]
    exact fun _ => rfl
  refine ⟨fun service => ⟨(attends_run hattends hrun).follows service, fun l => ?_⟩, ?_⟩
  · exact mem_run hnone hrun
  · rintro before after n g e rfl hg he
    rw [run_append, hg] at hrun
    exact reached_run (attends_run hattends hg) he hrun

/-! ### Two listeners -/

/-- Two listeners subscribe, and a host is found. -/
def foundForTwo : List Step :=
  [.ask 0 (fun _ => .dropped) (.subscribe "a@@b" (.named "l")),
   .ask 0 (fun _ => .dropped) (.subscribe "a@@b" (.named "m")),
   .round 0 .new (.ok (hostsText (hostText "a" "1")))]

/-- The first one is told of it, and takes both off; then the second one is told. -/
def leavingWhileTold : List Step :=
  [.tell 0,
   .ask 0 (fun _ => .dropped) (.unsubscribe "a@@b" (.named "m")),
   .ask 0 (fun _ => .dropped) (.unsubscribe "a@@b" (.named "l")),
   .tell 0]

theorem isSome_oneServer : (Client.ofSettings? Client.oneServer).isSome = true :=
  rfl

def newFeed : Feed :=
  begin ((Client.ofSettings? Client.oneServer).get isSome_oneServer)

/-- **Who leaves while an event is published is told of it nevertheless**, though the service is no
longer listed by then. -/
theorem reached_of_leavingWhileTold :
    ∃ f g e, newFeed.run (foundForTwo ++ .publish 0 :: leavingWhileTold) = some f ∧
      newFeed.run foundForTwo = some g ∧ g.found[0]? = some e ∧
      f.client.Follows "a@@b" ∧ f.client.isPolling "a@@b" = false ∧
      f.Reached 0 e [.named "l", .named "m"] 2 := by
  have hbefore : (newFeed.run foundForTwo).map (fun g => (g.found.map Event.service,
      g.publications.length, g.client.audience.of "a@@b")) =
      some (["a@@b"], 0, [.named "l", .named "m"]) := by
    decide +kernel
  have hafter : (newFeed.run (foundForTwo ++ .publish 0 :: leavingWhileTold)).map
      (·.client.isPolling "a@@b") = some false := by
    decide +kernel
  obtain ⟨g, hg, hstate⟩ := Option.map_eq_some_iff.1 hbefore
  obtain ⟨f, hf, hpolling⟩ := Option.map_eq_some_iff.1 hafter
  obtain ⟨hfound, hstate⟩ := Prod.mk.inj hstate
  obtain ⟨hlength, haudience⟩ := Prod.mk.inj hstate
  obtain ⟨e, he, hservice⟩ := List.map_eq_singleton_iff.1 hfound
  have hfirst : g.found[0]? = some e := by rw [he]; rfl
  obtain ⟨hfollows, hreached⟩ := follows_of_run (Option.some_get isSome_oneServer).symm hf
  have hreached := hreached rfl hg hfirst
  rw [hlength, hservice, haudience] at hreached
  exact ⟨f, g, e, hf, hg, hfirst, (hfollows "a@@b").1, hpolling, hreached⟩

end Feed

end Remote

end Discovery.Naming
