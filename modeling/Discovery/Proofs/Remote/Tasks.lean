import Discovery.Naming.Remote.Client
import Mathlib.Data.List.Nodup

/-!
# Tasks and tables

A remote client finds its tasks in two tables: those that keep instances alive by the name of the
address, those that list instances by the service.  Each table has each task of its kind under its
name and nothing else (`Indexes`), whatever the client starts and stops.

* `Indexes.put`, `Indexes.drop`: a task takes the place of the one with its name, or goes.
* `Kept`: both tables of a client are in order; `Kept.startBeat`, `Kept.stopBeat`,
  `Kept.subscribe`, `Kept.unsubscribe`, `Kept.found` keep them so.
-/

namespace Discovery.Naming.Remote

def Job.beatKey? : Job → Option String
  | .beat service i => some (Client.beatKey service i.ip i.port)
  | .poll _ _ => none

def Job.polled? : Job → Option String
  | .beat _ _ => none
  | .poll service _ => some service

/-- A table has each task under its name, and no others. -/
def Indexes (name : Job → Option String) (tasks : List Task) (t : Table Nat) : Prop :=
  ∀ key id, t.get? key = some id ↔ ∃ job, ⟨id, job⟩ ∈ tasks ∧ name job = some key

/-- Tasks have numbers of their own, below the next one. -/
structure Numbered (tasks : List Task) (next : Nat) : Prop where
  below : ∀ t ∈ tasks, t.id < next
  nodup : (tasks.map Task.id).Nodup

variable {name other : Job → Option String} {tasks : List Task} {t : Table Nat} {next : Nat}
  {job : Job} {key : String}

theorem Numbered.eq_of_id (h : Numbered tasks next) {x y : Task} (hx : x ∈ tasks) (hy : y ∈ tasks)
    (hid : x.id = y.id) : x = y :=
  List.inj_on_of_nodup_map h.nodup hx hy hid

/-- The tasks when one is stopped. -/
def without (tasks : List Task) (id : Option Nat) : List Task :=
  tasks.filter fun x => decide (some x.id ≠ id)

theorem mem_without {id : Option Nat} {x : Task} :
    x ∈ without tasks id ↔ x ∈ tasks ∧ some x.id ≠ id := by
  unfold without
  rw [List.mem_filter, decide_eq_true_eq]

theorem Numbered.without (h : Numbered tasks next) (id : Option Nat) :
    Numbered (without tasks id) next :=
  ⟨fun x hx => h.below x (mem_without.1 hx).1, (List.filter_sublist.map _).nodup h.nodup⟩

theorem Numbered.spawn (h : Numbered tasks next) (job : Job) :
    Numbered (tasks ++ [⟨next, job⟩]) (next + 1) := by
  refine ⟨fun x hx => ?_, ?_⟩
  · rcases List.mem_append.1 hx with hx | hx
    · exact Nat.lt_succ_of_lt (h.below x hx)
    · rw [List.mem_singleton.1 hx]
      exact Nat.lt_succ_self next
  · rw [List.map_append, List.map_singleton, List.nodup_append]
    refine ⟨h.nodup, List.nodup_singleton _, fun a ha b hb hab => ?_⟩
    obtain ⟨x, hx, rfl⟩ := List.mem_map.1 ha
    rw [List.mem_singleton.1 hb] at hab
    exact absurd hab (Nat.ne_of_lt (h.below x hx))

/-- **A task goes**, and its name leaves the table. -/
theorem Indexes.drop (h : Indexes name tasks t) (hn : Numbered tasks next) (key : String) :
    Indexes name (without tasks (t.get? key)) (t.erase key) := by
  intro k id
  rw [Table.get?_erase]
  constructor
  · intro hk
    split at hk
    · exact nomatch hk
    · next hne =>
      obtain ⟨job, hmem, hjob⟩ := (h k id).1 hk
      refine ⟨job, mem_without.2 ⟨hmem, fun hid => hne ?_⟩, hjob⟩
      obtain ⟨job', hmem', hjob'⟩ := (h key id).1 hid.symm
      obtain rfl : job = job' := congrArg Task.job (hn.eq_of_id hmem hmem' rfl)
      exact Option.some.inj (hjob.symm.trans hjob')
  · rintro ⟨job, hmem, hjob⟩
    obtain ⟨hmem, hne⟩ := mem_without.1 hmem
    have hk : t.get? k = some id := (h k id).2 ⟨job, hmem, hjob⟩
    rw [if_neg fun he => hne (he ▸ hk).symm, hk]

theorem Indexes.drop_other (h : Indexes name tasks t) (hn : Numbered tasks next)
    {u : Table Nat} (hu : Indexes other tasks u)
    (hkinds : ∀ job, name job = none ∨ other job = none) (key : String) :
    Indexes name (without tasks (u.get? key)) t := by
  intro k id
  rw [h k id]
  refine exists_congr fun job => ?_
  rw [mem_without]
  refine ⟨fun ⟨hmem, hjob⟩ => ⟨⟨hmem, fun hid => ?_⟩, hjob⟩, fun ⟨⟨hmem, _⟩, hjob⟩ => ⟨hmem, hjob⟩⟩
  obtain ⟨job', hmem', hjob'⟩ := (hu key id).1 hid.symm
  obtain rfl : job = job' := congrArg Task.job (hn.eq_of_id hmem hmem' rfl)
  rcases hkinds job with hk | hk
  · exact nomatch hk.symm.trans hjob
  · exact nomatch hk.symm.trans hjob'

theorem Indexes.spawn_other (h : Indexes name tasks t) (hjob : name job = none) :
    Indexes name (tasks ++ [⟨next, job⟩]) t := by
  intro k id
  rw [h k id]
  refine exists_congr fun job' => and_congr_left fun hjob' => ?_
  rw [List.mem_append, List.mem_singleton]
  refine ⟨.inl, fun hmem => hmem.resolve_right fun he => ?_⟩
  cases he
  exact nomatch hjob.symm.trans hjob'

/-- **A task begins** under a name that no task has. -/
theorem Indexes.spawn (h : Indexes name tasks t) (hjob : name job = some key)
    (hnone : t.get? key = none) :
    Indexes name (tasks ++ [⟨next, job⟩]) (t.insert key next) := by
  intro k id
  have hsplit : ∀ job', (⟨id, job'⟩ : Task) ∈ tasks ++ [⟨next, job⟩] ↔
      ⟨id, job'⟩ ∈ tasks ∨ id = next ∧ job' = job := by
    intro job'
    rw [List.mem_append, List.mem_singleton, Task.mk.injEq]
  simp only [Table.get?_insert, hsplit, or_and_right, exists_or, ← h k id]
  by_cases hkey : k = key
  · subst hkey
    rw [if_pos rfl, hnone]
    constructor
    · intro hid
      exact .inr ⟨job, ⟨(Option.some.inj hid).symm, rfl⟩, hjob⟩
    · rintro (hid | ⟨_, ⟨rfl, _⟩, _⟩)
      · exact nomatch hid
      · rfl
  · rw [if_neg hkey]
    refine ⟨.inl, fun hor => hor.resolve_right ?_⟩
    rintro ⟨_, ⟨_, rfl⟩, hjob'⟩
    exact hkey (Option.some.inj (hjob'.symm.trans hjob))

theorem without_spawn (h : Indexes name tasks t) (hn : Numbered tasks next) (job : Job)
    (key : String) : without (tasks ++ [⟨next, job⟩]) (t.get? key) =
      without tasks (t.get? key) ++ [⟨next, job⟩] := by
  have hfresh : some next ≠ t.get? key := by
    intro hid
    obtain ⟨_, hmem, _⟩ := (h key next).1 hid.symm
    exact Nat.lt_irrefl _ (hn.below _ hmem)
  unfold without
  rw [List.filter_append]
  exact congrArg _ (List.filter_cons_of_pos (decide_eq_true hfresh))

/-- **A task takes the place of the one with its name.** -/
theorem Indexes.put (h : Indexes name tasks t) (hn : Numbered tasks next)
    (hjob : name job = some key) :
    Indexes name (without (tasks ++ [⟨next, job⟩]) (t.get? key)) (t.insert key next) := by
  have htable : (t.erase key).insert key next = t.insert key next := by
    refine Table.ext_get? fun k => ?_
    rw [Table.get?_insert, Table.get?_insert, Table.get?_erase]
    split <;> rfl
  rw [without_spawn h hn, ← htable]
  exact (h.drop hn key).spawn hjob (Table.get?_erase_self _ _)

theorem Indexes.put_other (h : Indexes name tasks t) (hn : Numbered tasks next)
    {u : Table Nat} (hu : Indexes other tasks u)
    (hkinds : ∀ job, name job = none ∨ other job = none) (hjob : name job = none) :
    Indexes name (without (tasks ++ [⟨next, job⟩]) (u.get? key)) t := by
  rw [without_spawn hu hn]
  exact (h.drop_other hn hu hkinds key).spawn_other hjob

theorem Indexes.map (h : Indexes name tasks t) {f : Task → Task}
    (hf : ∀ x ∈ tasks, (f x).id = x.id ∧ name (f x).job = name x.job) :
    Indexes name (tasks.map f) t := by
  intro k id
  rw [h k id]
  constructor
  · rintro ⟨job, hmem, hjob⟩
    obtain ⟨hid, hname⟩ := hf _ hmem
    exact ⟨(f ⟨id, job⟩).job, List.mem_map.2 ⟨_, hmem, congrArg (Task.mk · _) hid⟩,
      hname.trans hjob⟩
  · rintro ⟨job, hmem, hjob⟩
    obtain ⟨x, hx, he⟩ := List.mem_map.1 hmem
    obtain ⟨hid, hname⟩ := hf x hx
    rw [he] at hid hname
    obtain rfl : id = x.id := hid
    exact ⟨x.job, hx, hname.symm.trans hjob⟩

theorem Numbered.map (h : Numbered tasks next) {f : Task → Task}
    (hf : ∀ x ∈ tasks, (f x).id = x.id) : Numbered (tasks.map f) next := by
  refine ⟨fun x hx => ?_, ?_⟩
  · obtain ⟨y, hy, rfl⟩ := List.mem_map.1 hx
    rw [hf y hy]
    exact h.below y hy
  · have hids : (tasks.map f).map Task.id = tasks.map Task.id := by
      rw [List.map_map]
      exact List.map_congr_left hf
    rw [hids]
    exact h.nodup

/-! ### The tables of a client -/

namespace Client

variable {c : Client} {service ip : String} {port : UInt16}

/-- Both tables of a client are in order. -/
structure Kept (c : Client) : Prop where
  numbered : Numbered c.tasks c.nextTask
  beats : Indexes Job.beatKey? c.tasks c.beats
  pollers : Indexes Job.polled? c.tasks c.pollers

/-- **A new client** has no listeners and no tasks. -/
theorem eq_of_ofSettings? {s : Settings} (hc : ofSettings? s = some c) :
    c = ⟨s, .new, ∅, ∅, ∅, [], 0⟩ := by
  unfold ofSettings? at hc
  split at hc
  · exact nomatch hc
  · exact (Option.some.inj hc).symm

theorem kept_ofSettings? {s : Settings} (hc : ofSettings? s = some c) : c.Kept := by
  obtain rfl := eq_of_ofSettings? hc
  refine ⟨⟨nofun, List.nodup_nil⟩, fun key id => ?_, fun key id => ?_⟩ <;>
    exact ⟨nofun, fun ⟨_, hmem, _⟩ => absurd hmem List.not_mem_nil⟩

theorem tasks_abort? (c : Client) (id : Option Nat) : (c.abort? id).tasks = without c.tasks id := by
  cases id with
  | none => exact (List.filter_eq_self.2 fun _ _ => rfl).symm
  | some id =>
    refine List.filter_congr fun x _ => ?_
    simp [bne, BEq.beq]

theorem abort?_eq (c : Client) (id : Option Nat) :
    c.abort? id = { c with tasks := without c.tasks id } := by
  rw [← tasks_abort?]
  cases id <;> rfl

theorem kinds_disjoint (job : Job) : job.beatKey? = none ∨ job.polled? = none := by
  cases job with
  | beat service i => exact .inr rfl
  | poll service last => exact .inl rfl

theorem startBeat_eq (c : Client) (service : String) (i : Instance) :
    c.startBeat service i = { c with
      beats := c.beats.insert (beatKey service i.ip i.port) c.nextTask
      tasks := without (c.tasks ++ [⟨c.nextTask, .beat service i⟩])
        (c.beats.get? (beatKey service i.ip i.port))
      nextTask := c.nextTask + 1 } :=
  abort?_eq _ _

theorem stopBeat_eq (c : Client) (service ip : String) (port : UInt16) :
    c.stopBeat service ip port = { c with
      beats := c.beats.erase (beatKey service ip port)
      tasks := without c.tasks (c.beats.get? (beatKey service ip port)) } :=
  abort?_eq _ _

theorem Kept.startBeat (h : c.Kept) (service : String) (i : Instance) :
    (c.startBeat service i).Kept := by
  rw [startBeat_eq]
  exact ⟨(h.numbered.spawn _).without _, h.beats.put h.numbered rfl,
    h.pollers.put_other h.numbered h.beats (fun job => (kinds_disjoint job).symm) rfl⟩

theorem Kept.stopBeat (h : c.Kept) (service ip : String) (port : UInt16) :
    (c.stopBeat service ip port).Kept := by
  rw [stopBeat_eq]
  exact ⟨h.numbered.without _, h.beats.drop h.numbered _,
    h.pollers.drop_other h.numbered h.beats (fun job => (kinds_disjoint job).symm) _⟩

theorem Kept.subscribe (h : c.Kept) (service : String) (l : Listener) :
    (c.subscribe service l).Kept := by
  unfold Client.subscribe
  dsimp only
  split
  · exact ⟨h.numbered, h.beats, h.pollers⟩
  · next hpolling =>
    exact ⟨h.numbered.spawn _, h.beats.spawn_other rfl,
      h.pollers.spawn rfl (Option.not_isSome_iff_eq_none.1 hpolling)⟩

theorem Kept.unsubscribe (h : c.Kept) (service : String) (l : Listener) :
    (c.unsubscribe service l).Kept := by
  unfold Client.unsubscribe
  dsimp only
  split
  · rw [abort?_eq]
    exact ⟨h.numbered.without _, h.beats.drop_other h.numbered h.pollers kinds_disjoint _,
      h.pollers.drop h.numbered _⟩
  · exact ⟨h.numbered, h.beats, h.pollers⟩

/-- The task that lists a service remembers what it has found. -/
def found (c : Client) (service : String) (last : List Instance) : Client :=
  match c.pollers.get? service with
  | some id => c.remember id service last
  | none => c

theorem Kept.job_of_remember (h : c.Kept) {id : Nat} (hid : c.pollers.get? service = some id)
    {x : Task} (hx : x ∈ c.tasks) (he : x.id = id) :
    x.job.beatKey? = none ∧ x.job.polled? = some service := by
  obtain ⟨job, hmem, hjob⟩ := (h.pollers service id).1 hid
  obtain rfl := h.numbered.eq_of_id hx hmem he
  exact ⟨(kinds_disjoint job).resolve_right fun hn => (nomatch hn.symm.trans hjob), hjob⟩

theorem Kept.found (h : c.Kept) (service : String) (last : List Instance) :
    (c.found service last).Kept := by
  unfold Client.found
  cases hid : c.pollers.get? service with
  | none => exact h
  | some id =>
    have hjob : ∀ x ∈ c.tasks, x.id = id →
        x.job.beatKey? = none ∧ x.job.polled? = some service :=
      fun x hx => h.job_of_remember hid hx
    refine ⟨h.numbered.map fun x _ => ?_, h.beats.map fun x hx => ?_,
      h.pollers.map fun x hx => ?_⟩
    · show (if x.id = id then (⟨id, .poll service last⟩ : Task) else x).id = x.id
      split
      · next he => exact he.symm
      · rfl
    · split
      · next he => exact ⟨he.symm, (hjob x hx he).1.symm⟩
      · exact ⟨rfl, rfl⟩
    · split
      · next he => exact ⟨he.symm, (hjob x hx he).2.symm⟩
      · exact ⟨rfl, rfl⟩

end Client

end Discovery.Naming.Remote
