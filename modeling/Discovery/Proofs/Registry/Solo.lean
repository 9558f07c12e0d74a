import Discovery.Proofs.Registry.Interplay
import Discovery.Proofs.Roster
import Mathlib.Logic.Function.Iterate

/-!
# Calls that run alone

While a call of a registry runs alone, it gets what it needs, one thing after the other, until it
is over.  What the client answers is up to the client, and so is what the consumers of the registry
are told meanwhile.  A consumer may panic, but does nothing else.

`Workings` says how the calls of some kind of registry go on, and which replies are errors that end
them.

* `next`, `after`: one step of a call that runs alone, and where it stands after some steps.
* `Settled`: what a call has come to of which a failure is counted once.
* `Keeps`: what this takes of each step of a call.
* `exists_returned`, `settled_of_returned`: every call comes to an end, and is settled then.
-/

namespace Discovery.Registry

def Action.operation : Action → String
  | .register _ _ _ => "register"
  | .unregister _ => "unregister"
  | .subscribe _ _ => "subscribe"
  | .unsubscribe _ _ => "unsubscribe"

def Need.Fits {κ ρ : Type} (n : Need κ) : Signal ρ → Prop
  | .admitted => ∃ ticket, n = .turn ticket
  | .answered _ => ∃ q, n = .ask q
  | .handed => ∃ key c data, n = .hand key c data

/-! ### Counting -/

namespace Core

variable {k k' k'' : Core} {operation : String} {n : UInt64}

/-- From one state to another `n` failures of an operation have been counted, and no others. -/
structure Counts (k : Core) (operation : String) (n : UInt64) (k' : Core) : Prop where
  kind : k'.kind = k.kind
  failures : ∀ kind op, k'.roster.meter.failureCount kind op =
    k.roster.meter.failureCount kind op +
      if FailureCounter.key kind op = FailureCounter.key k.kind operation then n else 0

theorem counts_of_failures (hkind : k'.kind = k.kind)
    (h : k'.roster.meter.failures = k.roster.meter.failures) : k.Counts operation 0 k' := by
  refine ⟨hkind, fun kind op => ?_⟩
  rw [ite_self, UInt64.add_zero]
  unfold Meter.failureCount Meter.failureCounter
  rw [h]

theorem counts_refl (k : Core) : k.Counts operation 0 k :=
  counts_of_failures rfl rfl

theorem counts_detach (k : Core) (v : Visit) : k.Counts operation 0 (k.detach v) :=
  counts_of_failures (Roster.kind_detach k.roster v.key v.consumer)
    (congrArg Meter.failures (Roster.meter_detach k.roster v.key v.consumer))

theorem counts_fail (k : Core) (operation name reason : String) :
    k.Counts operation 1 (k.fail operation name reason).1 :=
  ⟨rfl, fun kind op => Meter.failureCount_addFailures k.roster.meter k.kind operation kind op 1⟩

theorem Counts.still (h : k.Counts operation n k') (hkind : k''.kind = k'.kind)
    (hfailures : k''.roster.meter.failures = k'.roster.meter.failures) :
    k.Counts operation n k'' := by
  refine ⟨hkind.trans h.kind, fun kind op => ?_⟩
  rw [← h.failures]
  unfold Meter.failureCount Meter.failureCounter
  rw [hfailures]

theorem Counts.trans (h : k.Counts operation 0 k') (h' : k'.Counts operation n k'') :
    k.Counts operation n k'' := by
  refine ⟨h'.kind.trans h.kind, fun kind op => ?_⟩
  rw [h'.failures, h.failures, h.kind, ite_self, UInt64.add_zero]

end Core

/-! ### Workings and surroundings -/

/-- How the calls of a kind of registry go on, and what makes them fail. -/
structure Workings (α β κ ρ : Type) where
  core : α → Core
  modify : (Core → Core) → α → α
  core_modify : ∀ f r, core (modify f r) = f (core r)
  start : α → Action → Step α β
  need : β → Need κ
  resume : α → β → Signal ρ → Step α β
  /-- A bound on the number of steps that a call still takes. -/
  left : β → Nat
  left_resume : ∀ {r c signal d}, (need c).Fits signal → (resume r c signal).call = some d →
    left d < left c
  /-- What an action needs of its endpoint, its key or its path, can be had. -/
  Named : Core → Action → Prop
  /-- The reply is an error, and not one that a call for the action tolerates. -/
  Refused : Action → κ → ρ → Prop

/-- What surrounds a call that runs alone. -/
structure Surroundings (κ ρ : Type) where
  /-- The answer to a request, after the requests and answers so far. -/
  reply : List (κ × ρ) → κ → ρ
  /-- What the consumers of some keys are told while a request is answered. -/
  news : List (κ × ρ) → κ → List (String × Payload)
  conduct : Conduct

/-- A registry with the only call in progress, unless it is over. -/
structure Solo (α β κ ρ : Type) where
  registry : α
  call : Option β
  asked : List (κ × ρ)
  heard : List Notice

namespace Workings

variable {α β κ ρ : Type}

def host (m : Workings α β κ ρ) (w : Surroundings κ ρ) (key : String) :
    Host (Solo α β κ ρ) where
  roster s := (m.core s.registry).roster
  update f s :=
    { s with registry := m.modify (fun k => { k with roster := f k.roster }) s.registry }
  call c data s := ({ s with heard := s.heard ++ [⟨key, c, data⟩] }, w.conduct s.heard c data)
  log _ s := s

def tellAll (m : Workings α β κ ρ) (w : Surroundings κ ρ) (s : Solo α β κ ρ)
    (news : List (String × Payload)) : Solo α β κ ρ :=
  news.foldl (fun s x => ((m.host w x.1).tell x.1 x.2 s).1) s

def look (m : Workings α β κ ρ) (s : Solo α β κ ρ) (ticket : Nat) : Solo α β κ ρ :=
  { s with registry := m.modify (fun k => { k with locks := k.locks.poll ticket }) s.registry }

/-- What is needed is got, unless it is a lock that is taken. -/
def provide (m : Workings α β κ ρ) (w : Surroundings κ ρ) (s : Solo α β κ ρ) :
    Need κ → Solo α β κ ρ × Option (Signal ρ)
  | .turn ticket =>
    let s := m.look s ticket
    (s, if (m.core s.registry).locks.holds ticket then some .admitted else none)
  | .ask q =>
    let reply := w.reply s.asked q
    ({ m.tellAll w s (w.news s.asked q) with asked := s.asked ++ [(q, reply)] },
      some (.answered reply))
  | .hand key c data => (((m.host w key).tellOne key c data s).1, some .handed)

def take (s : Solo α β κ ρ) (st : Step α β) : Solo α β κ ρ :=
  { s with registry := st.registry, call := st.call }

/-- **One step** of the call, if it is not over. -/
def next (m : Workings α β κ ρ) (w : Surroundings κ ρ) (s : Solo α β κ ρ) : Solo α β κ ρ :=
  match s.call with
  | none => s
  | some c =>
    match m.provide w s (m.need c) with
    | (s, none) => s
    | (s, some signal) => take s (m.resume s.registry c signal)

def begin (m : Workings α β κ ρ) (r : α) (a : Action) : Solo α β κ ρ :=
  take ⟨r, none, [], []⟩ (m.start r a)

/-- Where a call that runs alone stands after some steps. -/
def after (m : Workings α β κ ρ) (w : Surroundings κ ρ) (r : α) (a : Action) (n : Nat) :
    Solo α β κ ρ :=
  (m.next w)^[n] (m.begin r a)

variable (m : Workings α β κ ρ)

def failures (r : α) (kind operation : String) : UInt64 :=
  (m.core r).roster.meter.failureCount kind operation

/-! ### What a call comes to -/

/-- The call has failed: what it needs of its endpoint cannot be had, or it was refused
something. -/
def Failed (r : α) (a : Action) (s : Solo α β κ ρ) : Prop :=
  ¬ m.Named (m.core r) a ∨ ∃ x ∈ s.asked, m.Refused a x.1 x.2

/-- **The failure of a call is counted**, once if it has failed. -/
structure Settled (r : α) (a : Action) (s : Solo α β κ ρ) : Prop where
  once : m.Failed r a s → m.failures s.registry (m.core r).kind a.operation =
    m.failures r (m.core r).kind a.operation + 1
  never : ¬ m.Failed r a s → m.failures s.registry (m.core r).kind a.operation =
    m.failures r (m.core r).kind a.operation
  /-- The counters of the other operations show what they showed. -/
  others : ∀ op, op ≠ a.operation →
    m.failures s.registry (m.core r).kind op = m.failures r (m.core r).kind op
  /-- So do all counters with another name, of whatever registry. -/
  elsewhere : ∀ kind op,
    FailureCounter.key kind op ≠ FailureCounter.key (m.core r).kind a.operation →
    m.failures s.registry kind op = m.failures r kind op
  /-- Nothing is asked for an endpoint without a name. -/
  unasked : ¬ m.Named (m.core r) a → s.asked = []
  /-- Nothing is asked after a refusal. -/
  stops : ∀ before x after, s.asked = before ++ x :: after → m.Refused a x.1 x.2 → after = []

/-- A step after which nothing more is counted and the call, if it goes on, serves its purpose. -/
structure Well (serves : Action → β → Prop) (a : Action) (k : Core) (st : Step α β) : Prop where
  counts : k.Counts a.operation 0 (m.core st.registry)
  serves : ∀ c, st.call = some c → serves a c

/-- A step with which the call is over and its failure is counted. -/
structure Ill (a : Action) (k : Core) (st : Step α β) : Prop where
  counts : k.Counts a.operation 1 (m.core st.registry)
  ended : st.call = none

/-- Whether a step is to go well is decided by whether something bad has happened. -/
structure Judged (serves : Action → β → Prop) (a : Action) (bad : Prop) (k : Core)
    (st : Step α β) : Prop where
  well : ¬ bad → m.Well serves a k st
  ill : bad → m.Ill a k st

/-- **What is asked of each step of a call**, where `serves` says which calls serve an action. -/
structure Keeps (serves : Action → β → Prop) : Prop where
  start : ∀ r a, m.Judged serves a (¬ m.Named (m.core r) a) (m.core r) (m.start r a)
  admitted : ∀ {a c t} r, serves a c → m.need c = .turn t →
    m.Well serves a (m.core r) (m.resume r c .admitted)
  handed : ∀ {a c key x data} r, serves a c → m.need c = .hand key x data →
    m.Well serves a (m.core r) (m.resume r c .handed)
  answered : ∀ {a c q} r reply, serves a c → m.need c = .ask q →
    m.Judged serves a (m.Refused a q reply) (m.core r) (m.resume r c (.answered reply))
  /-- Who begins when nobody is at a lock has the lock that it needs. -/
  ready : ∀ {r a c t}, (m.core r).locks.claims = [] → (m.start r a).call = some c →
    m.need c = .turn t → ((m.core (m.start r a).registry).locks.poll t).holds t = true
  /-- A lock is needed at the beginning only. -/
  passed : ∀ {r c signal d t}, (m.need c).Fits signal → (m.resume r c signal).call = some d →
    m.need d ≠ .turn t

/-! ### Judging -/

section

variable {m} {serves : Action → β → Prop} {a : Action} {bad : Prop} {k : Core} {st : Step α β}

theorem Judged.of_well (h : ¬ bad) (hst : m.Well serves a k st) : m.Judged serves a bad k st :=
  ⟨fun _ => hst, fun hb => absurd hb h⟩

theorem Judged.of_ill (h : bad) (hst : m.Ill a k st) : m.Judged serves a bad k st :=
  ⟨fun hn => absurd h hn, fun _ => hst⟩

end

/-! ### Telling -/

variable {m} {w : Surroundings κ ρ} {r : α} {a : Action} {s s' : Solo α β κ ρ} {c : β}

/-- Nothing is asked and no failure is counted. -/
structure Quiet (m : Workings α β κ ρ) (s s' : Solo α β κ ρ) : Prop where
  asked : s'.asked = s.asked
  counts : ∀ operation, (m.core s.registry).Counts operation 0 (m.core s'.registry)

theorem quiet_refl (s : Solo α β κ ρ) : m.Quiet s s :=
  ⟨rfl, fun _ => Core.counts_refl _⟩

theorem Quiet.trans {u : Solo α β κ ρ} (h : m.Quiet s s') (h' : m.Quiet s' u) : m.Quiet s u :=
  ⟨h'.asked.trans h.asked, fun op => (h.counts op).trans (h'.counts op)⟩

theorem quiet_modify {f : Core → Core} (hkind : ∀ k, (f k).kind = k.kind)
    (hf : ∀ k, (f k).roster.meter.failures = k.roster.meter.failures) :
    m.Quiet s { s with registry := m.modify f s.registry } := by
  refine ⟨rfl, fun op => ?_⟩
  show (m.core s.registry).Counts op 0 (m.core (m.modify f s.registry))
  rw [m.core_modify]
  exact Core.counts_of_failures (hkind _) (hf _)

theorem Quiet.addDeliveries (h : m.Quiet s s') {key : String} (n : Nat) :
    m.Quiet s ((m.host w key).update (·.addDeliveries n) s') :=
  h.trans (quiet_modify (f := fun k => { k with roster := k.roster.addDeliveries n })
    (fun _ => rfl) fun _ => rfl)

theorem quiet_tell (key : String) (data : Payload) (s : Solo α β κ ρ) :
    m.Quiet s ((m.host w key).tell key data s).1 :=
  Host.tell_induction (P := fun _ u => m.Quiet s u) (fun _ hu => ⟨hu.asked, hu.counts⟩)
    (fun _ hu => hu) (fun n hu => hu.addDeliveries n) (quiet_refl s)

theorem quiet_tellOne (key : String) (x : Consumer) (data : Payload) (s : Solo α β κ ρ) :
    m.Quiet s ((m.host w key).tellOne key x data s).1 :=
  Host.tellOne_induction (P := fun _ u => m.Quiet s u) (fun _ hu => ⟨hu.asked, hu.counts⟩)
    (fun _ hu => hu) (fun n hu => hu.addDeliveries n) x (quiet_refl s)

theorem quiet_tellAll : ∀ (news : List (String × Payload)) (s : Solo α β κ ρ),
    m.Quiet s (m.tellAll w s news) := by
  intro news
  induction news with
  | nil => exact quiet_refl
  | cons x news ih => exact fun s => (quiet_tell x.1 x.2 s).trans (ih _)

/-! ### From one step to all -/

variable {serves : Action → β → Prop}

/-- **A call that stands at `c`** and has not failed so far. -/
structure Underway (m : Workings α β κ ρ) (serves : Action → β → Prop) (r : α) (a : Action)
    (c : β) (s : Solo α β κ ρ) : Prop where
  call : s.call = some c
  serves : serves a c
  named : m.Named (m.core r) a
  counts : (m.core r).Counts a.operation 0 (m.core s.registry)
  unrefused : ∀ x ∈ s.asked, ¬ m.Refused a x.1 x.2
  ready : ∀ t, m.need c = .turn t → ((m.core s.registry).locks.poll t).holds t = true

theorem elsewhere_of_counts {n : UInt64}
    (h : (m.core r).Counts a.operation n (m.core s.registry)) (kind op : String)
    (hkey : FailureCounter.key kind op ≠ FailureCounter.key (m.core r).kind a.operation) :
    m.failures s.registry kind op = m.failures r kind op := by
  unfold failures
  rw [h.failures, if_neg hkey, UInt64.add_zero]

theorem others_of_counts {n : UInt64}
    (h : (m.core r).Counts a.operation n (m.core s.registry)) (op : String)
    (hop : op ≠ a.operation) :
    m.failures s.registry (m.core r).kind op = m.failures r (m.core r).kind op :=
  elsewhere_of_counts h _ op (mt FailureCounter.key_inj.1 hop)

theorem count_of_counts {n : UInt64}
    (h : (m.core r).Counts a.operation n (m.core s.registry)) :
    m.failures s.registry (m.core r).kind a.operation =
      m.failures r (m.core r).kind a.operation + n := by
  unfold failures
  rw [h.failures, if_pos rfl]

theorem settled_of_well (named : m.Named (m.core r) a)
    (counts : (m.core r).Counts a.operation 0 (m.core s.registry))
    (unrefused : ∀ x ∈ s.asked, ¬ m.Refused a x.1 x.2) : m.Settled r a s where
  once := by
    rintro (hn | ⟨x, hx, hr⟩)
    · exact absurd named hn
    · exact absurd hr (unrefused x hx)
  never _ := (count_of_counts counts).trans (UInt64.add_zero _)
  others := others_of_counts counts
  elsewhere := elsewhere_of_counts counts
  unasked hn := absurd named hn
  stops := by
    intro before x after hasked hr
    exact absurd hr (unrefused x (hasked ▸ List.mem_append_right _ List.mem_cons_self))

theorem settled_of_ill (failed : m.Failed r a s)
    (counts : (m.core r).Counts a.operation 1 (m.core s.registry))
    (unasked : ¬ m.Named (m.core r) a → s.asked = [])
    (stops : ∀ before x after, s.asked = before ++ x :: after → m.Refused a x.1 x.2 →
      after = []) : m.Settled r a s where
  once _ := count_of_counts counts
  never h := absurd failed h
  others := others_of_counts counts
  elsewhere := elsewhere_of_counts counts
  unasked := unasked
  stops := stops

/-- If only the last of a list may be refused, nothing comes after a refusal. -/
theorem eq_nil_of_refused {asked before after : List (κ × ρ)} {y x : κ × ρ}
    (unrefused : ∀ x ∈ asked, ¬ m.Refused a x.1 x.2) (h : asked ++ [y] = before ++ x :: after)
    (hr : m.Refused a x.1 x.2) : after = [] := by
  rcases List.eq_nil_or_concat after with rfl | ⟨init, z, rfl⟩
  · rfl
  · rw [List.concat_eq_append, ← List.cons_append, ← List.append_assoc] at h
    have hinit : asked = before ++ x :: init := List.append_inj_left' h rfl
    exact absurd hr (unrefused x (hinit ▸ List.mem_append_right _ List.mem_cons_self))

/-- A step that goes well leaves the call under way, with fewer steps to go, or it is over. -/
theorem Underway.take_well (h : m.Underway serves r a c s) (hk : m.Keeps serves)
    (s' : Solo α β κ ρ)
    (hs' : ∀ operation, (m.core s.registry).Counts operation 0 (m.core s'.registry))
    (unrefused : ∀ x ∈ s'.asked, ¬ m.Refused a x.1 x.2) {signal : Signal ρ}
    (hfits : (m.need c).Fits signal)
    (hwell : m.Well serves a (m.core s'.registry) (m.resume s'.registry c signal)) :
    (∃ d, m.Underway serves r a d (take s' (m.resume s'.registry c signal)) ∧
        m.left d < m.left c) ∨
      (take s' (m.resume s'.registry c signal)).call = none ∧
        m.Settled r a (take s' (m.resume s'.registry c signal)) := by
  have hcounts := (h.counts.trans (hs' _)).trans hwell.counts
  cases hd : (m.resume s'.registry c signal).call with
  | none => exact .inr ⟨hd, settled_of_well h.named hcounts unrefused⟩
  | some d =>
    exact .inl ⟨d, ⟨hd, hwell.serves d hd, h.named, hcounts, unrefused,
      fun t ht => absurd ht (hk.passed hfits hd)⟩, m.left_resume hfits hd⟩

/-- **One step of a call that is under way.** -/
theorem Underway.next (h : m.Underway serves r a c s) (hk : m.Keeps serves) :
    (∃ d, m.Underway serves r a d (m.next w s) ∧ m.left d < m.left c) ∨
      (m.next w s).call = none ∧ m.Settled r a (m.next w s) := by
  unfold Workings.next
  rw [h.call]
  dsimp only
  cases hneed : m.need c with
  | turn t =>
    have hheld : (m.core (m.look s t).registry).locks.holds t = true := by
      unfold look
      rw [m.core_modify]
      exact h.ready t hneed
    have hquiet : m.Quiet s (m.look s t) := quiet_modify (fun _ => rfl) fun _ => rfl
    unfold provide
    dsimp only
    rw [if_pos hheld]
    exact h.take_well hk _ hquiet.counts h.unrefused ⟨t, hneed⟩ (hk.admitted _ h.serves hneed)
  | hand key x data =>
    have hquiet := quiet_tellOne (m := m) (w := w) key x data s
    exact h.take_well hk _ hquiet.counts (fun y hy => h.unrefused y (hquiet.asked ▸ hy))
      ⟨key, x, data, hneed⟩ (hk.handed _ h.serves hneed)
  | ask q =>
    have hquiet := quiet_tellAll (m := m) (w := w) (w.news s.asked q) s
    have hjudged := hk.answered (m.tellAll w s (w.news s.asked q)).registry
      (w.reply s.asked q) h.serves hneed
    by_cases hr : m.Refused a q (w.reply s.asked q)
    · have hill := hjudged.ill hr
      refine .inr ⟨hill.ended, settled_of_ill (.inr ⟨_, List.mem_concat_self, hr⟩)
        ((h.counts.trans (hquiet.counts _)).trans hill.counts) (fun hn => absurd h.named hn) ?_⟩
      exact fun before x after hasked => eq_nil_of_refused h.unrefused hasked
    · have hfits : (m.need c).Fits (.answered (w.reply s.asked q)) := ⟨q, hneed⟩
      refine h.take_well hk
        { m.tellAll w s (w.news s.asked q) with asked := s.asked ++ [(q, w.reply s.asked q)] }
        hquiet.counts (fun x hx => ?_) hfits (hjudged.well hr)
      rcases List.mem_append.1 hx with hx | hx
      · exact h.unrefused x hx
      · rw [List.mem_singleton.1 hx]
        exact hr

theorem Underway.exists_over (hk : m.Keeps serves) (w : Surroundings κ ρ) :
    ∀ (n : Nat) {c : β} {s : Solo α β κ ρ}, m.Underway serves r a c s → m.left c < n →
      ∃ i, ((m.next w)^[i] s).call = none ∧ m.Settled r a ((m.next w)^[i] s) := by
  intro n
  induction n with
  | zero => exact fun _ hn => absurd hn (Nat.not_lt_zero _)
  | succ n ih =>
    intro c s h hn
    rcases h.next (w := w) hk with ⟨d, hd, hlt⟩ | hs
    · obtain ⟨i, hi⟩ := ih hd (by omega)
      exact ⟨i + 1, hi⟩
    · exact ⟨1, hs⟩

theorem after_eq_of_le {i n : Nat} (h : (m.after w r a i).call = none) (hle : i ≤ n) :
    m.after w r a n = m.after w r a i := by
  obtain ⟨j, rfl⟩ := Nat.exists_eq_add_of_le' hle
  unfold after
  rw [Function.iterate_add_apply]
  refine Function.iterate_fixed ?_ j
  show m.next w (m.after w r a i) = m.after w r a i
  unfold next
  rw [h]

/-- The lock that a call begins with is free, if it begins with one. -/
def Ready (m : Workings α β κ ρ) (r : α) (a : Action) : Prop :=
  ∀ c t, (m.start r a).call = some c → m.need c = .turn t →
    ((m.core (m.start r a).registry).locks.poll t).holds t = true

theorem exists_over (hk : m.Keeps serves) (w : Surroundings κ ρ) (hready : m.Ready r a) :
    ∃ n, (m.after w r a n).call = none ∧ m.Settled r a (m.after w r a n) := by
  by_cases hnamed : m.Named (m.core r) a
  · have hwell := (hk.start r a).well (not_not_intro hnamed)
    have hnone : ∀ x ∈ (m.begin r a).asked, ¬ m.Refused a x.1 x.2 := fun x hx => nomatch hx
    cases hc : (m.start r a).call with
    | none => exact ⟨0, hc, settled_of_well hnamed hwell.counts hnone⟩
    | some c =>
      have hunder : m.Underway serves r a c (m.begin r a) :=
        ⟨hc, hwell.serves c hc, hnamed, hwell.counts, hnone, fun t => hready c t hc⟩
      exact hunder.exists_over hk w _ (Nat.lt_succ_self _)
  · have hill := (hk.start r a).ill hnamed
    refine ⟨0, hill.ended, settled_of_ill (.inl hnamed) hill.counts (fun _ => rfl) ?_⟩
    intro before x after hasked
    exact absurd hasked (List.append_ne_nil_of_right_ne_nil _ (List.cons_ne_nil _ _)).symm

/-- **A call that begins with a free lock returns**, and is settled then. -/
theorem settled_of_ready (hk : m.Keeps serves) (w : Surroundings κ ρ) (hready : m.Ready r a) :
    (∃ n, (m.after w r a n).call = none) ∧
      ∀ n, (m.after w r a n).call = none → m.Settled r a (m.after w r a n) := by
  obtain ⟨i, hi, hsettled⟩ := exists_over hk w hready
  refine ⟨⟨i, hi⟩, fun n h => ?_⟩
  have heq : m.after w r a n = m.after w r a i := by
    rcases Nat.le_total i n with hle | hle
    · exact after_eq_of_le hi hle
    · exact (after_eq_of_le h hle).symm
  rw [heq]
  exact hsettled

/-- **Every call that runs alone returns.** -/
theorem exists_returned (hk : m.Keeps serves) (w : Surroundings κ ρ)
    (hidle : (m.core r).locks.claims = []) (a : Action) :
    ∃ n, (m.after w r a n).call = none :=
  (settled_of_ready hk w fun _ _ hc => hk.ready hidle hc).1

/-- **A call that has returned is settled.** -/
theorem settled_of_returned (hk : m.Keeps serves) (hidle : (m.core r).locks.claims = []) {n : Nat}
    (h : (m.after w r a n).call = none) : m.Settled r a (m.after w r a n) :=
  (settled_of_ready hk w fun _ _ hc => hk.ready hidle hc).2 n h

end Workings

end Discovery.Registry
