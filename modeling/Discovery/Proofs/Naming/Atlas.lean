import Discovery.Proofs.Naming.Directory
import Discovery.Proofs.Naming.Provider
import Mathlib.Data.List.Nodup
import Mathlib.Logic.Function.Basic

/-!
# A directory is an ordered map

To those who call it, a directory is for each service a map from addresses to instances that
remembers in which order the addresses came (`Chart`), and the listeners in the order in which they
came (`Circle`).  An `Atlas` has both for all services; `Atlas.serve` says what a request makes of
them and whom it tells what.

* `Chart.instances_put`, `Chart.instances_drop`: the two changes of a map, read as a list of
  instances.
* `Directory.Shows`: the directory shows the instances and the listeners that the atlas has.
* `Directory.Shows.answer`: a request keeps them together, and owes the same deliveries.
* `Directory.shows_of_requests`: and so do all requests, one after the other.
-/

namespace Discovery.Naming

/-- Where an instance is to be reached. -/
abbrev Address := String × UInt16

def Instance.address (i : Instance) : Address :=
  (i.ip, i.port)

theorem Instance.isAt_iff_address {i : Instance} {a : Address} :
    i.isAt a.1 a.2 = true ↔ i.address = a :=
  isAt_iff.trans (Prod.ext_iff (x := i.address) (y := a)).symm

/-! ### Lists without repetition -/

section

variable {α : Type} [DecidableEq α] {as : List α} {a b : α}

/-- Puts something at the end of a list, unless it is there. -/
def enter (as : List α) (a : α) : List α :=
  if a ∈ as then as else as ++ [a]

theorem mem_enter : b ∈ enter as a ↔ b = a ∨ b ∈ as := by
  unfold enter
  by_cases h : a ∈ as
  · rw [if_pos h]
    exact (or_iff_right_of_imp fun heq => heq ▸ h).symm
  · rw [if_neg h, List.mem_append, List.mem_singleton, or_comm]

theorem nodup_enter (h : as.Nodup) (a : α) : (enter as a).Nodup := by
  unfold enter
  by_cases ha : a ∈ as
  · rwa [if_pos ha]
  · rw [if_neg ha]
    exact List.nodup_append_comm.1 (List.nodup_cons.2 ⟨ha, h⟩)

theorem enter_cons (h : b ≠ a) (as : List α) : enter (b :: as) a = b :: enter as a := by
  unfold enter
  by_cases ha : a ∈ as
  · rw [if_pos ha, if_pos (List.mem_cons_of_mem _ ha)]
  · have hcons : a ∉ b :: as := fun hmem =>
      (List.mem_cons.1 hmem).elim (fun heq => h heq.symm) ha
    rw [if_neg ha, if_neg hcons, List.cons_append]

end

/-! ### Charts -/

/-- **A map from addresses to instances of a service**, with the order in which the addresses
came. -/
structure Chart (service : String) where
  order : List Address
  get? : Address → Option Instance
  nodup : order.Nodup
  mem_order : ∀ a, a ∈ order ↔ (get? a).isSome = true
  home : ∀ a i, get? a = some i → i.address = a ∧ i.service = service

namespace Chart

variable {service : String} {c : Chart service} {a : Address} {i j : Instance}

def empty (service : String) : Chart service where
  order := []
  get? _ := none
  nodup := .nil
  mem_order _ := iff_of_false List.not_mem_nil Bool.false_ne_true
  home := nofun

def instances (c : Chart service) : List Instance :=
  c.order.filterMap c.get?

/-- Puts an instance at its address.  If the address is new, it comes last; if not, it stays where
it is in the order. -/
def put (c : Chart service) (i : Instance) : Chart service where
  order := enter c.order i.address
  get? := Function.update c.get? i.address (some { i with service })
  nodup := nodup_enter c.nodup _
  mem_order a := by
    rw [mem_enter]
    by_cases ha : a = i.address
    · rw [ha, Function.update_self]
      exact iff_of_true (.inl rfl) rfl
    · rw [Function.update_of_ne ha, ← c.mem_order]
      exact or_iff_right ha
  home a j h := by
    by_cases ha : a = i.address
    · subst ha
      rw [Function.update_self, Option.some.injEq] at h
      exact h ▸ ⟨rfl, rfl⟩
    · rw [Function.update_of_ne ha] at h
      exact c.home a j h

def drop (c : Chart service) (a : Address) : Chart service where
  order := c.order.filter (· ≠ a)
  get? := Function.update c.get? a none
  nodup := c.nodup.filter _
  mem_order b := by
    by_cases hb : b = a
    · simp [hb]
    · simp [hb, c.mem_order]
  home b j h := by
    by_cases hb : b = a
    · subst hb
      rw [Function.update_self] at h
      exact absurd h (Option.some_ne_none j).symm
    · rw [Function.update_of_ne hb] at h
      exact c.home b j h

theorem exists_of_mem_order (h : a ∈ c.order) : ∃ i, c.get? a = some i ∧ i.address = a := by
  obtain ⟨i, hi⟩ := Option.isSome_iff_exists.1 ((c.mem_order a).1 h)
  exact ⟨i, hi, (c.home a i hi).1⟩

theorem mem_instances : i ∈ c.instances ↔ c.get? i.address = some i := by
  unfold instances
  rw [List.mem_filterMap]
  constructor
  · rintro ⟨a, _, hi⟩
    rwa [(c.home a i hi).1]
  · intro hi
    exact ⟨i.address, (c.mem_order _).2 (by rw [hi]; rfl), hi⟩

theorem map_address_instances (c : Chart service) : c.instances.map Instance.address = c.order := by
  unfold instances
  rw [List.map_filterMap]
  have hhome : ∀ a ∈ c.order, (c.get? a).map Instance.address = some a := by
    intro a ha
    obtain ⟨i, hi, hia⟩ := exists_of_mem_order ha
    rw [hi, Option.map_some, hia]
  rw [List.filterMap_congr hhome, List.filterMap_some]

/-- To enter an address with its instance is to put the instance into the list of instances. -/
theorem filterMap_update {f : Address → Option Instance} : ∀ {as : List Address}, as.Nodup →
    (∀ a ∈ as, ∃ j, f a = some j ∧ j.address = a) →
      (enter as i.address).filterMap (Function.update f i.address (some i)) =
        Directory.place i (as.filterMap f) := by
  intro as
  induction as with
  | nil =>
    intro _ _
    exact List.filterMap_cons_some (Function.update_self i.address (some i) f)
  | cons a as ih =>
    intro hnodup hf
    obtain ⟨hnot, hnodup⟩ := List.nodup_cons.1 hnodup
    obtain ⟨j, hj, hja⟩ := hf a List.mem_cons_self
    have hplace : Directory.place i ((a :: as).filterMap f) =
        if a = i.address then i :: as.filterMap f
        else j :: Directory.place i (as.filterMap f) := by
      have hat : j.isAt i.ip i.port = true ↔ a = i.address := by
        rw [← hja]
        exact Instance.isAt_iff_address (a := i.address)
      rw [List.filterMap_cons_some hj, Directory.place]
      simp only [hat]
    rw [hplace]
    by_cases ha : a = i.address
    · subst ha
      have hrest : ∀ b ∈ as, Function.update f i.address (some i) b = f b := fun b hb =>
        Function.update_of_ne (ne_of_mem_of_not_mem hb hnot) _ _
      rw [enter, if_pos List.mem_cons_self, if_pos rfl,
        List.filterMap_cons_some (Function.update_self i.address (some i) f),
        List.filterMap_congr hrest]
    · have hsame : Function.update f i.address (some i) a = some j := by
        rw [Function.update_of_ne ha, hj]
      rw [if_neg ha, ← ih hnodup fun b hb => hf b (List.mem_cons_of_mem _ hb), enter_cons ha,
        List.filterMap_cons_some hsame]

/-- **The instances after one has been put at its address.** -/
theorem instances_put (c : Chart service) (i : Instance) :
    (c.put i).instances = Directory.place { i with service } c.instances :=
  filterMap_update (i := { i with service }) c.nodup fun _ => exists_of_mem_order

/-- **The instances after an address has been dropped.** -/
theorem instances_drop (c : Chart service) (a : Address) :
    (c.drop a).instances = c.instances.filter fun i => !i.isAt a.1 a.2 := by
  show (c.order.filter (· ≠ a)).filterMap (Function.update c.get? a none) =
    (c.order.filterMap c.get?).filter _
  rw [List.filterMap_filter, List.filter_filterMap]
  refine List.filterMap_congr fun b hb => ?_
  obtain ⟨i, hi, hib⟩ := exists_of_mem_order hb
  have hat : i.isAt a.1 a.2 = decide (b = a) := by
    rw [Bool.eq_iff_iff, Instance.isAt_iff_address, decide_eq_true_iff, hib]
  by_cases hba : b = a
  · subst hba
    simp [Option.filter, hi, hat]
  · simp [Option.filter, hi, hat, hba]

/-- Of the instances at an address, those of a kind are the one that the chart has there, if it is
of that kind. -/
theorem isAt_and_iff {e : Bool} (hi : i ∈ c.instances) :
    (i.isAt a.1 a.2 && i.ephemeral == e) = true ↔ c.get? a = some i ∧ i.ephemeral = e := by
  rw [Bool.and_eq_true, Instance.isAt_iff_address, beq_iff_eq]
  refine and_congr_left fun _ => ⟨fun h => h ▸ mem_instances.1 hi, fun h => (c.home a i h).1⟩

end Chart

/-! ### Circles -/

/-- **Listeners, each of them once**, in the order in which they came. -/
structure Circle where
  listeners : List Listener
  nodup : listeners.Nodup

namespace Circle

def empty : Circle := ⟨[], .nil⟩

def join (c : Circle) (l : Listener) : Circle where
  listeners := enter c.listeners l
  nodup := nodup_enter c.nodup l

def leave (c : Circle) (l : Listener) : Circle :=
  ⟨c.listeners.filter (· ≠ l), c.nodup.filter _⟩

end Circle

/-! ### Atlases -/

/-- A chart and a circle for each service. -/
structure Atlas where
  charts : ∀ service, Chart service
  circles : String → Circle

namespace Atlas

def blank : Atlas := ⟨.empty, fun _ => .empty⟩

/-- What is told of a service now. -/
def event (a : Atlas) (service : String) : Event :=
  ⟨service, (a.charts service).instances⟩

/-- All listeners of a service are told, each of them once and in their order. -/
def told (a : Atlas) (service : String) : List Delivery :=
  (a.circles service).listeners.map fun l => ⟨l, a.event service⟩

def redraw (a : Atlas) {service : String} (c : Chart service) : Atlas :=
  { a with charts := Function.update a.charts service c }

def gather (a : Atlas) (service : String) (c : Circle) : Atlas :=
  { a with circles := Function.update a.circles service c }

@[simp] theorem charts_redraw_self (a : Atlas) {service : String} (c : Chart service) :
    (a.redraw c).charts service = c :=
  Function.update_self service c a.charts

theorem charts_redraw_of_ne (a : Atlas) {service s : String} (c : Chart service)
    (h : s ≠ service) : (a.redraw c).charts s = a.charts s :=
  Function.update_of_ne h c a.charts

theorem circles_gather (a : Atlas) (service s : String) (c : Circle) :
    (a.gather service c).circles s = if s = service then c else a.circles s :=
  Function.update_apply a.circles service c s

/-- **What a request makes of an atlas, and whom it tells what.** -/
def serve (a : Atlas) : Request → Atlas × List Delivery
  | .register service i =>
    let b := a.redraw ((a.charts service).put i)
    (b, b.told service)
  | .deregister service ip port ephemeral =>
    if ∃ i, (a.charts service).get? (ip, port) = some i ∧ i.ephemeral = ephemeral then
      let b := a.redraw ((a.charts service).drop (ip, port))
      (b, b.told service)
    else (a, [])
  | .subscribe service l =>
    (a.gather service ((a.circles service).join l),
      if (a.charts service).instances = [] then [] else [⟨l, a.event service⟩])
  | .unsubscribe service l => (a.gather service ((a.circles service).leave l), [])

end Atlas

/-- Requests are answered one after the other, and each of them owes deliveries of its own. -/
def answers {σ : Type} (step : σ → Request → σ × List Delivery) (s : σ) :
    List Request → σ × List (List Delivery)
  | [] => (s, [])
  | q :: qs =>
    let (s', ds) := step s q
    let (s'', dss) := answers step s' qs
    (s'', ds :: dss)

/-! ### Directories -/

namespace Directory

variable {d : Directory} {a : Atlas}

/-- **The directory shows the instances and the listeners** that the atlas has. -/
structure Shows (d : Directory) (a : Atlas) : Prop where
  instances : ∀ k, d.instances k = (a.charts k).instances
  listeners : ∀ k, d.audience.of k = (a.circles k).listeners

theorem shows_blank : (∅ : Directory).Shows .blank :=
  ⟨fun _ => rfl, fun _ => rfl⟩

theorem Shows.publish (h : d.Shows a) (k : String) :
    d.audience.publish ⟨k, d.instances k⟩ = a.told k := by
  rw [h.instances]
  exact congrArg _ (h.listeners k)

/-- **A change of the instances of one service**, which leaves the listeners alone. -/
theorem Shows.redraw {d' : Directory} {k : String} {c : Chart k} (h : d.Shows a)
    (hinst : ∀ s, d'.instances s = if s = k then c.instances else d.instances s)
    (haud : d'.audience = d.audience) : d'.Shows (a.redraw c) where
  instances s := by
    rw [hinst]
    by_cases hs : s = k
    · subst hs
      rw [if_pos rfl, Atlas.charts_redraw_self]
    · rw [if_neg hs, Atlas.charts_redraw_of_ne a c hs, h.instances]
  listeners s := by
    rw [haud]
    exact h.listeners s

/-- **A change of the listeners of one service**, which leaves the instances alone. -/
theorem Shows.gather {d' : Directory} {k : String} {c : Circle} (h : d.Shows a)
    (hinst : ∀ s, d'.instances s = d.instances s)
    (haud : ∀ s, d'.audience.of s = if s = k then c.listeners else d.audience.of s) :
    d'.Shows (a.gather k c) where
  instances s := (hinst s).trans (h.instances s)
  listeners s := by
    rw [haud, Atlas.circles_gather]
    by_cases hs : s = k
    · rw [if_pos hs, if_pos hs]
    · rw [if_neg hs, if_neg hs, h.listeners]

/-! ### Requests -/

theorem Shows.register (h : d.Shows a) (k : String) (i : Instance) :
    (d.answer (.register k i)).1.Shows (a.serve (.register k i)).1 ∧
      (d.answer (.register k i)).2 = (a.serve (.register k i)).2 := by
  have hnext : (d.answer (.register k i)).1.Shows (a.serve (.register k i)).1 := by
    refine h.redraw (fun s => ?_) rfl
    rw [instances_answer, Chart.instances_put, ← h.instances]
    exact ite_congr rfl (fun hs => hs ▸ rfl) fun _ => rfl
  exact ⟨hnext, hnext.publish k⟩

theorem Shows.staying_eq (h : d.Shows a) {k : String} {x : Address} {e : Bool} {i : Instance}
    (hi : (a.charts k).get? x = some i) (he : i.ephemeral = e) :
    d.staying k x.1 x.2 e = ((a.charts k).drop x).instances := by
  rw [Chart.instances_drop, ← h.instances, staying]
  refine List.filter_congr fun j hj => congrArg _ ?_
  rw [h.instances] at hj
  rw [Bool.eq_iff_iff, Chart.isAt_and_iff hj, Instance.isAt_iff_address]
  constructor
  · exact fun hat => ((a.charts k).home x j hat.1).1
  · rintro rfl
    have hj := Chart.mem_instances.1 hj
    exact ⟨hj, Option.some.inj (hj.symm.trans hi) ▸ he⟩

theorem Shows.staying_eq_self (h : d.Shows a) {k : String} {x : Address} {e : Bool}
    (hnone : ¬ ∃ i, (a.charts k).get? x = some i ∧ i.ephemeral = e) :
    d.staying k x.1 x.2 e = d.instances k := by
  refine List.filter_eq_self.2 fun j hj => ?_
  rw [h.instances] at hj
  rw [Bool.not_eq_true', Bool.eq_false_iff]
  exact fun hat => hnone ⟨j, (Chart.isAt_and_iff hj).1 hat⟩

theorem Shows.deregister (h : d.Shows a) (k ip : String) (port : UInt16) (e : Bool) :
    (d.answer (.deregister k ip port e)).1.Shows (a.serve (.deregister k ip port e)).1 ∧
      (d.answer (.deregister k ip port e)).2 = (a.serve (.deregister k ip port e)).2 := by
  have hinst : ∀ s, (d.answer (.deregister k ip port e)).1.instances s =
      if s = k then d.staying k ip port e else d.instances s := by
    intro s
    rw [instances_answer]
    exact ite_congr rfl (fun hs => hs ▸ rfl) fun _ => rfl
  have hself := (hinst k).trans (if_pos rfl)
  have haud : (d.answer (.deregister k ip port e)).1.audience = d.audience :=
    Directory.provider.audience_other d () (.deregister k ip port e) rfl
  rw [owed_deregister, hself, Atlas.serve]
  split
  · next hthere =>
    obtain ⟨i, hi, he⟩ := hthere
    have hleft : d.staying k ip port e = _ := h.staying_eq hi he
    have hgone : d.staying k ip port e ≠ d.instances k := by
      intro heq
      have hmem : i ∈ d.instances k := by
        rw [h.instances, Chart.mem_instances, ((a.charts k).home _ i hi).1, hi]
      rw [← heq] at hmem
      have hstays := (List.mem_filter.1 hmem).2
      have hat := Instance.isAt_iff_address.2 ((a.charts k).home _ i hi).1
      simp [hat, he] at hstays
    have hnext := h.redraw (fun s => hleft ▸ hinst s) haud
    have hpublish := hnext.publish k
    rw [hself, haud] at hpublish
    exact ⟨hnext, (if_neg hgone).trans hpublish⟩
  · next hnone =>
    have hleft : d.staying k ip port e = d.instances k := h.staying_eq_self hnone
    refine ⟨⟨fun s => ?_, fun s => haud ▸ h.listeners s⟩, if_pos hleft⟩
    rw [hinst, hleft, ← h.instances]
    exact ite_eq_right_iff.2 fun hs => hs ▸ rfl

theorem Shows.subscribe (h : d.Shows a) (k : String) (l : Listener) :
    (d.answer (.subscribe k l)).1.Shows (a.serve (.subscribe k l)).1 ∧
      (d.answer (.subscribe k l)).2 = (a.serve (.subscribe k l)).2 := by
  refine ⟨h.gather (fun _ => rfl) fun s => ?_, ?_⟩
  · show (d.audience.add k l).of s = _
    rw [Audience.of_add, h.listeners k]
    simp only [List.contains_iff_mem, Circle.join, enter]
  · show (if (d.instances k).isEmpty then [] else [Delivery.mk l ⟨k, d.instances k⟩]) = _
    rw [h.instances, Atlas.serve]
    simp only [List.isEmpty_iff]
    rfl

theorem Shows.unsubscribe (h : d.Shows a) (k : String) (l : Listener) :
    (d.answer (.unsubscribe k l)).1.Shows (a.serve (.unsubscribe k l)).1 ∧
      (d.answer (.unsubscribe k l)).2 = (a.serve (.unsubscribe k l)).2 := by
  refine ⟨h.gather (fun _ => rfl) fun s => ?_, rfl⟩
  show (d.audience.remove k l).of s = _
  rw [Audience.of_remove, h.listeners k, Circle.leave]
  simp only [ne_eq, decide_not]
  rfl

/-- **A request keeps directory and atlas together**, and both tell the same. -/
theorem Shows.answer (h : d.Shows a) (q : Request) :
    (d.answer q).1.Shows (a.serve q).1 ∧ (d.answer q).2 = (a.serve q).2 := by
  cases q with
  | register k i => exact h.register k i
  | deregister k ip port e => exact h.deregister k ip port e
  | subscribe k l => exact h.subscribe k l
  | unsubscribe k l => exact h.unsubscribe k l

/-- **Any number of requests keep them together.** -/
theorem Shows.run : ∀ {qs : List Request} {d : Directory} {a : Atlas}, d.Shows a →
    (answers Directory.answer d qs).1.Shows (answers Atlas.serve a qs).1 ∧
      (answers Directory.answer d qs).2 = (answers Atlas.serve a qs).2 := by
  intro qs
  induction qs with
  | nil => exact fun h => ⟨h, rfl⟩
  | cons q qs ih =>
    intro d a h
    obtain ⟨hnext, howed⟩ := h.answer q
    obtain ⟨hlast, hrest⟩ := ih hnext
    exact ⟨hlast, congrArg₂ List.cons howed hrest⟩

theorem Shows.addresses (h : d.Shows a) (k : String) :
    (d.instances k).map Instance.address = (a.charts k).order := by
  rw [h.instances, Chart.map_address_instances]

/-- **A directory is an ordered map from addresses to instances, for each service.**  Whatever has
been asked of it, it shows the instances and the listeners that an atlas has of which the same has
been asked, and each request has owed the same deliveries.  In particular no two instances of a
service are at one address, each instance names its service, and no listener is told twice. -/
theorem shows_of_requests (qs : List Request) :
    (answers Directory.answer ∅ qs).1.Shows (answers Atlas.serve .blank qs).1 ∧
      (answers Directory.answer ∅ qs).2 = (answers Atlas.serve .blank qs).2 ∧
      ∀ k, (((answers Directory.answer ∅ qs).1.instances k).map Instance.address).Nodup ∧
        (∀ i ∈ (answers Directory.answer ∅ qs).1.instances k, i.service = k) ∧
        ((answers Directory.answer ∅ qs).1.audience.of k).Nodup := by
  obtain ⟨h, howed⟩ := shows_blank.run
  refine ⟨h, howed, fun k => ⟨?_, fun i hi => ?_, ?_⟩⟩
  · rw [h.addresses]
    exact Chart.nodup _
  · rw [h.instances] at hi
    exact (Chart.home _ _ i (Chart.mem_instances.1 hi)).2
  · rw [h.listeners]
    exact Circle.nodup _

/-- An instance of the other kind takes the place of the first one, and outlasts its kind. -/
example :
    let i := Instance.ofAddress "10.0.0.1" 80
    ((answers Directory.answer ∅ [.register "s" i, .register "s" (.ofAddress "10.0.0.2" 80),
      .register "s" { i with ephemeral := false }, .deregister "s" i.ip i.port true]).1.instances
        "s").map (·.ephemeral) = [false, true] := by
  decide

end Directory

end Discovery.Naming
