import Discovery.Naming.Directory

/-!
# Instances of a directory

What a request makes of the instances of its service (`Request.applyTo`, `instances_answer`), and
what an instance that is put into a list does to the instances at its address and at others
(`filter_place`, `filter_place_of_not_isAt`).

* `Named`: each instance names the service at which it is, which requests keep.
* `owed_register`, `owed_deregister`: the deliveries that a change of the instances owes.
-/

namespace Discovery.Naming

/-- What a request makes of the instances of its service. -/
def Request.applyTo : Request → List Instance → List Instance
  | .register service i, is => Directory.place { i with service } is
  | .deregister _ ip port ephemeral, is =>
    is.filter fun i => !(i.isAt ip port && i.ephemeral == ephemeral)
  | .subscribe _ _, is | .unsubscribe _ _, is => is

namespace Instance

variable {i j : Instance} {ip : String} {port : UInt16}

theorem isAt_iff : i.isAt ip port = true ↔ i.ip = ip ∧ i.port = port := by
  unfold isAt
  rw [Bool.and_eq_true, beq_iff_eq, beq_iff_eq]

theorem isAt_self (i : Instance) : i.isAt i.ip i.port = true :=
  isAt_iff.2 ⟨rfl, rfl⟩

theorem isAt_comm (i j : Instance) : j.isAt i.ip i.port = i.isAt j.ip j.port := by
  rw [Bool.eq_iff_iff, isAt_iff, isAt_iff]
  exact and_congr eq_comm eq_comm

end Instance

namespace Directory

variable {d : Directory} {i j : Instance} {is : List Instance} {ip k : String} {port : UInt16}
  {ephemeral : Bool} {q : Request}

theorem instances_register (d : Directory) (service : String) (i : Instance) (k : String) :
    (d.register service i).instances k =
      if k = service then place { i with service } (d.instances service) else d.instances k := by
  simp only [register, instances, Table.getD, Table.get?_insert]
  by_cases h : k = service <;> simp [h]

theorem instances_setInstances (d : Directory) (service : String) (is : List Instance)
    (k : String) :
    (d.setInstances service is).instances k = if k = service then is else d.instances k := by
  by_cases hk : k = service
  · subst hk
    by_cases he : is.isEmpty
    · simp [setInstances, instances, Table.getD, List.isEmpty_iff.1 he]
    · simp [setInstances, instances, Table.getD, he]
  · by_cases he : is.isEmpty <;>
      simp [setInstances, instances, Table.getD, he, hk, Table.get?_erase_of_ne,
        Table.get?_insert_of_ne]

theorem staying_eq_of_length (h : (d.staying k ip port ephemeral).length = (d.instances k).length) :
    d.staying k ip port ephemeral = d.instances k :=
  List.filter_sublist.eq_of_length h

/-- **What a request makes of the instances of a service.** -/
theorem instances_answer (d : Directory) (q : Request) (k : String) :
    (d.answer q).1.instances k =
      if k = q.service then q.applyTo (d.instances k) else d.instances k := by
  cases q with
  | register service i =>
    show (d.register service i).instances k = if k = service then _ else _
    rw [instances_register]
    by_cases hk : k = service
    · subst hk
      rfl
    · rw [if_neg hk, if_neg hk]
  | deregister service ip port ephemeral =>
    show _ = if k = service then _ else _
    have happly : (Request.deregister service ip port ephemeral).applyTo (d.instances service) =
        d.staying service ip port ephemeral := rfl
    by_cases hlen : (d.staying service ip port ephemeral).length = (d.instances service).length
    · simp only [answer, hlen, ↓reduceIte]
      by_cases hk : k = service
      · subst hk
        rw [if_pos rfl, happly, staying_eq_of_length hlen]
      · rw [if_neg hk]
    · simp only [answer, hlen, ↓reduceIte]
      rw [instances_setInstances]
      by_cases hk : k = service
      · subst hk
        rw [if_pos rfl, if_pos rfl, happly]
      · rw [if_neg hk, if_neg hk]
  | subscribe service l => exact (ite_self _).symm
  | unsubscribe service l => exact (ite_self _).symm

/-! ### Instances at an address -/

/-- **An instance takes the place of the first one at its address.** -/
theorem filter_place (i : Instance) (is : List Instance) :
    (place i is).filter (·.isAt i.ip i.port) = i :: (is.filter (·.isAt i.ip i.port)).tail := by
  have hself := i.isAt_self
  induction is with
  | nil => simp [place, hself]
  | cons j is ih =>
    by_cases hj : j.isAt i.ip i.port = true
    · simp [place, hj, hself]
    · simp [place, hj, ih]

theorem filter_place_of_not_isAt (hi : i.isAt ip port = false) (is : List Instance) :
    (place i is).filter (·.isAt ip port) = is.filter (·.isAt ip port) := by
  induction is with
  | nil => simp [place, hi]
  | cons j is ih =>
    by_cases hj : j.isAt i.ip i.port = true
    · have hother : j.isAt ip port = false := by
        obtain ⟨hip, hport⟩ := Instance.isAt_iff.1 hj
        rw [← hi, Instance.isAt, Instance.isAt, hip, hport]
      simp [place, hj, hi, hother]
    · rw [place, if_neg hj, List.filter_cons, List.filter_cons, ih]

/-! ### Names -/

/-- Each instance names the service at which it is. -/
def Named (d : Directory) : Prop :=
  ∀ k, ∀ i ∈ d.instances k, i.service = k

theorem mem_place (h : j ∈ place i is) : j = i ∨ j ∈ is := by
  induction is with
  | nil => exact .inl (List.mem_singleton.1 h)
  | cons x is ih =>
    rw [place] at h
    split at h
    · exact (List.mem_cons.1 h).imp_right (List.mem_cons_of_mem _)
    · rcases List.mem_cons.1 h with rfl | h
      · exact .inr List.mem_cons_self
      · exact (ih h).imp_right (List.mem_cons_of_mem _)

/-- **Requests keep instances named.** -/
theorem Named.answer (h : d.Named) (q : Request) : (d.answer q).1.Named := by
  intro k i hi
  rw [instances_answer] at hi
  split at hi
  · next hk =>
    subst hk
    cases q with
    | register service j =>
      rcases mem_place hi with rfl | hi
      · rfl
      · exact h _ i hi
    | deregister service ip port ephemeral => exact h _ i (List.mem_filter.1 hi).1
    | subscribe service l => exact h _ i hi
    | unsubscribe service l => exact h _ i hi
  · exact h k i hi

theorem named_empty : (∅ : Directory).Named :=
  fun _ _ hi => absurd hi List.not_mem_nil

/-! ### Deliveries -/

/-- **A registration is told to all listeners of the service.** -/
theorem owed_register (d : Directory) (k : String) (i : Instance) :
    (d.answer (.register k i)).2 =
      d.audience.publish ⟨k, (d.answer (.register k i)).1.instances k⟩ :=
  rfl

/-- **A deregistration is told to all listeners of the service**, if an instance goes. -/
theorem owed_deregister (d : Directory) (k ip : String) (port : UInt16) (ephemeral : Bool) :
    (d.answer (.deregister k ip port ephemeral)).2 =
      if (d.answer (.deregister k ip port ephemeral)).1.instances k = d.instances k then []
      else d.audience.publish ⟨k, (d.answer (.deregister k ip port ephemeral)).1.instances k⟩ := by
  have hinst : (d.answer (.deregister k ip port ephemeral)).1.instances k =
      d.staying k ip port ephemeral := by
    rw [instances_answer]
    exact if_pos rfl
  rw [hinst]
  by_cases hlen : (d.staying k ip port ephemeral).length = (d.instances k).length
  · rw [if_pos (staying_eq_of_length hlen)]
    simp only [answer, hlen, ↓reduceIte]
  · rw [if_neg fun h => hlen (congrArg List.length h)]
    simp only [answer, hlen, ↓reduceIte]
    unfold event
    rw [instances_setInstances, if_pos rfl]
    rfl

end Directory

end Discovery.Naming
