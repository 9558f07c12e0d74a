import Discovery.Roster

/-!
# Telling

Telling consumers is the same wherever the roster lives.

* `tell_induction`, `tellOne_induction`: what each call of a consumer keeps holds when all have
  been told, or one of them.
* `Together.tell`, `Together.tellOne`: if two states go together, and go on doing so when a roster
  is changed, a consumer is called or a line is written down in both, they still go together after
  consumers are told in both.
-/

namespace Discovery.Host

variable {σ τ : Type} {h : Host σ} {g : Host τ} {R : σ → τ → Prop}

/-! ### One after the other -/

section

variable {P : List Consumer → σ → Prop} {key : String} {data : Payload}

theorem deliver_induction (hcall : ∀ {cs s} c, P cs s → P (cs ++ [c]) (h.call c data s).1)
    (hlog : ∀ {cs s} line, P cs s → P cs (h.log line s)) {cs : List Consumer} {s : σ}
    (c : Consumer) (hs : P cs s) : P (cs ++ [c]) (h.deliver key data c s).1 := by
  have hcalled := hcall c hs
  unfold Host.deliver
  cases hc : h.call c data s with
  | mk s' o =>
    rw [hc] at hcalled
    cases o with
    | completed => exact hcalled
    | panicked why => exact hlog _ hcalled

theorem deliverAll_induction (hcall : ∀ {cs s} c, P cs s → P (cs ++ [c]) (h.call c data s).1)
    (hlog : ∀ {cs s} line, P cs s → P cs (h.log line s)) : ∀ (cs : List Consumer)
    {done : List Consumer} {s : σ}, P done s → P (done ++ cs) (h.deliverAll key data cs s).1 := by
  intro cs
  induction cs with
  | nil =>
    intro done s hs
    rw [List.append_nil]
    exact hs
  | cons c cs ih =>
    intro done s hs
    rw [List.append_cons]
    exact ih (deliver_induction hcall hlog c hs)

/-- **What each call of a consumer keeps** holds when all consumers of a key have been told, of
those who were called. -/
theorem tell_induction (hcall : ∀ {cs s} c, P cs s → P (cs ++ [c]) (h.call c data s).1)
    (hlog : ∀ {cs s} line, P cs s → P cs (h.log line s))
    (hupdate : ∀ {cs s} n, P cs s → P cs (h.update (·.addDeliveries n) s)) {s : σ}
    (hs : P [] s) : P ((h.roster s).consumers key) (h.tell key data s).1 := by
  unfold Host.tell Roster.consumers Table.getD
  cases hcs : (h.roster s).attached.get? key with
  | none => exact hs
  | some cs => exact hupdate _ (deliverAll_induction hcall hlog cs hs)

/-- What a call of a consumer keeps holds when one consumer of a key has been told, if it is
attached. -/
theorem tellOne_induction (hcall : ∀ {cs s} c, P cs s → P (cs ++ [c]) (h.call c data s).1)
    (hlog : ∀ {cs s} line, P cs s → P cs (h.log line s))
    (hupdate : ∀ {cs s} n, P cs s → P cs (h.update (·.addDeliveries n) s)) (c : Consumer) {s : σ}
    (hs : P [] s) :
    P (if c ∈ (h.roster s).consumers key then [c] else []) (h.tellOne key c data s).1 := by
  unfold Host.tellOne
  simp only [List.contains_iff_mem]
  split
  · have hdelivered : P [c] (h.deliver key data c s).1 := deliver_induction hcall hlog c hs
    dsimp only
    split
    · exact hupdate 1 hdelivered
    · exact hdelivered
  · exact hs

end

/-! ### In two places -/

/-- Two hosts do the same, as far as a relation between their states goes. -/
structure Together (R : σ → τ → Prop) (h : Host σ) (g : Host τ) : Prop where
  roster : ∀ {s t}, R s t → h.roster s = g.roster t
  update : ∀ {s t} (n : Nat), R s t →
    R (h.update (·.addDeliveries n) s) (g.update (·.addDeliveries n) t)
  called : ∀ {s t} (c : Consumer) (data : Payload), R s t →
    R (h.call c data s).1 (g.call c data t).1 ∧ (h.call c data s).2 = (g.call c data t).2
  log : ∀ {s t} (line : LogLine), R s t → R (h.log line s) (g.log line t)

variable {s : σ} {t : τ} {key : String} {data : Payload}

theorem Together.deliver (H : Together R h g) (key : String) (data : Payload) (c : Consumer)
    (hR : R s t) :
    R (h.deliver key data c s).1 (g.deliver key data c t).1 ∧
      (h.deliver key data c s).2 = (g.deliver key data c t).2 := by
  obtain ⟨hcall, ho⟩ := H.called c data hR
  unfold Host.deliver
  cases hs : h.call c data s with
  | mk s' o =>
    cases ht : g.call c data t with
    | mk t' o' =>
      rw [hs, ht] at hcall ho
      dsimp only at hcall ho
      subst ho
      cases o with
      | completed => exact ⟨hcall, rfl⟩
      | panicked why => exact ⟨H.log _ hcall, rfl⟩

theorem Together.deliverAll (H : Together R h g) (key : String) (data : Payload) :
    ∀ (cs : List Consumer) {s : σ} {t : τ}, R s t →
    R (h.deliverAll key data cs s).1 (g.deliverAll key data cs t).1 ∧
      (h.deliverAll key data cs s).2 = (g.deliverAll key data cs t).2 := by
  intro cs
  induction cs with
  | nil => intro s t hR; exact ⟨hR, rfl⟩
  | cons c cs ih =>
    intro s t hR
    obtain ⟨hd, ho⟩ := H.deliver key data c hR
    obtain ⟨hall, hn⟩ := ih hd
    refine ⟨hall, ?_⟩
    unfold Host.deliverAll
    dsimp only
    rw [ho, hn]

/-- **All consumers of a key are told in both places.** -/
theorem Together.tell (H : Together R h g) (hR : R s t) :
    R (h.tell key data s).1 (g.tell key data t).1 ∧
      (h.tell key data s).2 = (g.tell key data t).2 := by
  unfold Host.tell
  rw [H.roster hR]
  cases (g.roster t).attached.get? key with
  | none => exact ⟨hR, rfl⟩
  | some cs =>
    obtain ⟨hall, hn⟩ := H.deliverAll key data cs hR
    dsimp only
    rw [hn]
    exact ⟨H.update _ hall, rfl⟩

/-- **One consumer of a key is told in both places.** -/
theorem Together.tellOne (H : Together R h g) (hR : R s t) (c : Consumer) :
    R (h.tellOne key c data s).1 (g.tellOne key c data t).1 ∧
      (h.tellOne key c data s).2 = (g.tellOne key c data t).2 := by
  unfold Host.tellOne
  rw [H.roster hR]
  split
  · obtain ⟨hd, ho⟩ := H.deliver key data c hR
    dsimp only
    rw [ho]
    split
    · exact ⟨H.update 1 hd, rfl⟩
    · exact ⟨hd, rfl⟩
  · exact ⟨hR, rfl⟩

end Discovery.Host
