import Discovery.Roster
import Mathlib.Algebra.BigOperators.Group.Multiset.Defs
import Mathlib.Algebra.Group.Nat.Defs
import Mathlib.Logic.Relation

/-!
# Rounds of calls

When the consumers of a key are told something, they are called in a round, and what the round came
to is counted at its end.  Until then a consumer that is called may attach and detach consumers and
begin further rounds, and so may others; it may panic as well.  A `Hall` is a roster with the rounds
that are under way and what the calls came to that have returned.

* `Step`, `Leads`: what may happen next, and in the course of time.
* `Balanced.leads`: what is counted and what the rounds under way have still to count is together
  the number of calls that completed.
* `leads_tell`, `leads_tellOne`: telling goes in such steps, whatever the consumers do meanwhile.
* `counted_of_leads`: between rounds just the calls that completed are counted.
-/

namespace Discovery

def Meter.deliveryCount (m : Meter) (kind : String) : UInt64 :=
  m.deliveries.getD kind 0

/-- A round of calls. -/
inductive Round where
  /-- The consumers of a key are called, of whom these have not returned yet. -/
  | all (left : List Consumer) (completed : Nat)
  /-- One consumer is called. -/
  | one
  /-- The one consumer has returned. -/
  | done (completed : Bool)
deriving DecidableEq, Repr

namespace Round

def returned? (o : Outcome) : Round → Option Round
  | .all (_ :: cs) n => some (.all cs (if o = .completed then n + 1 else n))
  | .one => some (.done (decide (o = .completed)))
  | _ => none

/-- What is counted at the end of a round. -/
def count? (r : Roster) : Round → Option Roster
  | .all [] n => some (r.addDeliveries n)
  | .done ok => some (if ok then r.addDeliveries 1 else r)
  | _ => none

/-- The number of calls that completed and are not counted yet. -/
def owes : Round → Nat
  | .all _ n => n
  | .one => 0
  | .done ok => ok.toNat

end Round

/-- A roster, the rounds that are under way, and what the calls came to that have returned. -/
structure Hall where
  roster : Roster
  rounds : Multiset Round
  returned : List Outcome

namespace Hall

def ofKind (kind : String) : Hall :=
  ⟨.ofKind kind, 0, []⟩

/-- The number of calls that have completed. -/
def completed (s : Hall) : Nat :=
  s.returned.count .completed

def note (s : Hall) (o : Outcome) : Hall :=
  { s with returned := s.returned ++ [o] }

/-- **What may happen next.**  In each round the consumers are called one after the other, and
between any two steps of a round anything else may happen. -/
inductive Step : Hall → Hall → Prop
  | attach {s : Hall} (key : String) (c : Consumer) :
      Step s { s with roster := s.roster.attach key c }
  | detach {s : Hall} (key : String) (c : Consumer) :
      Step s { s with roster := s.roster.detach key c }
  | fail {s : Hall} (operation : String) : Step s { s with roster := s.roster.fail operation }
  /-- The consumers that a key has at this moment are to be called. -/
  | tell {s : Hall} {key : String} {cs : List Consumer}
      (consumers : s.roster.attached.get? key = some cs) :
      Step s { s with rounds := .all cs 0 ::ₘ s.rounds }
  /-- One consumer of a key is to be called. -/
  | tellOne {s : Hall} {key : String} {c : Consumer} (there : c ∈ s.roster.consumers key) :
      Step s { s with rounds := .one ::ₘ s.rounds }
  | returns {s : Hall} {r r' : Round} {rest : Multiset Round} (o : Outcome)
      (under : s.rounds = r ::ₘ rest) (next : r.returned? o = some r') :
      Step s { s.note o with rounds := r' ::ₘ rest }
  | ends {s : Hall} {r : Round} {rest : Multiset Round} {counted : Roster}
      (under : s.rounds = r ::ₘ rest) (next : r.count? s.roster = some counted) :
      Step s { s with roster := counted, rounds := rest }

/-- What may happen in the course of time. -/
abbrev Leads : Hall → Hall → Prop :=
  Relation.ReflTransGen Step

variable {s s' : Hall} {kind key : String} {data : Payload} {c : Consumer}

/-! ### The balance -/

/-- **What is counted** is the number of calls that completed, but for those in rounds that are
still under way. -/
structure Balanced (kind : String) (s : Hall) : Prop where
  ofKind : s.roster.kind = kind
  count : s.roster.meter.deliveryCount kind + .ofNat (s.rounds.map Round.owes).sum =
    .ofNat s.completed

theorem balanced_ofKind (kind : String) : (ofKind kind).Balanced kind :=
  ⟨rfl, rfl⟩

theorem deliveryCount_addDeliveries (r : Roster) (n : Nat) :
    (r.addDeliveries n).meter.deliveryCount r.kind = r.meter.deliveryCount r.kind + .ofNat n := by
  simp [Roster.addDeliveries, Meter.addDeliveries, Meter.deliveryCount, Table.getD]

theorem count_of_count? {r : Round} {roster counted : Roster} (h : r.count? roster = some counted) :
    counted.kind = roster.kind ∧ counted.meter.deliveryCount roster.kind =
      roster.meter.deliveryCount roster.kind + .ofNat r.owes := by
  cases r with
  | all left n =>
    cases left with
    | nil =>
      obtain rfl : roster.addDeliveries n = counted := Option.some.inj h
      exact ⟨rfl, deliveryCount_addDeliveries roster n⟩
    | cons c cs => exact nomatch h
  | one => exact nomatch h
  | done ok =>
    obtain rfl : (if ok then roster.addDeliveries 1 else roster) = counted := Option.some.inj h
    cases ok with
    | true => exact ⟨rfl, deliveryCount_addDeliveries roster 1⟩
    | false => exact ⟨rfl, (UInt64.add_zero _).symm⟩

theorem owes_of_returned? {r r' : Round} {o : Outcome} (h : r.returned? o = some r') :
    r'.owes = r.owes + [o].count .completed := by
  cases r with
  | all left n =>
    cases left with
    | nil => exact nomatch h
    | cons c cs =>
      obtain rfl : Round.all cs (if o = .completed then n + 1 else n) = r' := Option.some.inj h
      by_cases ho : o = .completed <;> simp [Round.owes, ho]
  | one =>
    obtain rfl : Round.done (decide (o = .completed)) = r' := Option.some.inj h
    by_cases ho : o = .completed <;> simp [Round.owes, ho]
  | done ok => exact nomatch h

/-- **Each step keeps the balance.** -/
theorem Balanced.step (h : s.Balanced kind) (hs : Step s s') : s'.Balanced kind := by
  cases hs with
  | attach key c => exact ⟨h.ofKind, h.count⟩
  | detach key c =>
    refine ⟨(Roster.kind_detach _ _ _).trans h.ofKind, ?_⟩
    show (s.roster.detach key c).meter.deliveryCount kind + _ = _
    rw [Roster.meter_detach]
    exact h.count
  | fail operation => exact ⟨h.ofKind, h.count⟩
  | tell | tellOne =>
    refine ⟨h.ofKind, ?_⟩
    rw [Multiset.map_cons, Multiset.sum_cons, Round.owes, Nat.zero_add]
    exact h.count
  | @returns r r' rest o under next =>
    refine ⟨h.ofKind, ?_⟩
    have hcount := h.count
    rw [under, Multiset.map_cons, Multiset.sum_cons] at hcount
    show s.roster.meter.deliveryCount kind + .ofNat ((r' ::ₘ rest).map Round.owes).sum =
      .ofNat ((s.returned ++ [o]).count .completed)
    rw [Multiset.map_cons, Multiset.sum_cons, owes_of_returned? next, List.count_append,
      UInt64.ofNat_add (s.returned.count _), ← completed, ← hcount, UInt64.add_assoc,
      ← UInt64.ofNat_add, Nat.add_right_comm]
  | @ends r rest counted under next =>
    obtain ⟨hkind, hcounted⟩ := count_of_count? next
    refine ⟨hkind.trans h.ofKind, ?_⟩
    have hcount := h.count
    rw [under, Multiset.map_cons, Multiset.sum_cons, UInt64.ofNat_add, ← UInt64.add_assoc] at hcount
    rw [h.ofKind] at hcounted
    show counted.meter.deliveryCount kind + .ofNat (rest.map Round.owes).sum = _
    rw [hcounted]
    exact hcount

theorem Balanced.leads (h : s.Balanced kind) (hs : Leads s s') : s'.Balanced kind := by
  induction hs with
  | refl => exact h
  | tail _ hn ih => exact ih.step hn

/-! ### A round more -/

/-- The same with one more round under way. -/
def under (s : Hall) (r : Round) : Hall :=
  { s with rounds := r ::ₘ s.rounds }

/-- What may happen may also happen while another round is under way. -/
theorem Step.under (h : Step s s') (r : Round) : Step (s.under r) (s'.under r) := by
  cases h with
  | attach key c => exact .attach key c
  | detach key c => exact .detach key c
  | fail operation => exact .fail operation
  | @tell key cs consumers =>
    have hstep := Step.tell (s := s.under r) consumers
    rwa [Hall.under, Multiset.cons_swap] at hstep
  | tellOne there =>
    have hstep := Step.tellOne (s := s.under r) there
    rwa [Hall.under, Multiset.cons_swap] at hstep
  | @returns x x' rest o under next =>
    have hunder : (s.under r).rounds = x ::ₘ r ::ₘ rest := by
      rw [Multiset.cons_swap, ← under]
      rfl
    have hstep := Step.returns o hunder next
    rwa [Multiset.cons_swap] at hstep
  | @ends x rest counted under next =>
    have hunder : (s.under r).rounds = x ::ₘ r ::ₘ rest := by
      rw [Multiset.cons_swap, ← under]
      rfl
    exact .ends hunder next

theorem Leads.under (h : Leads s s') (r : Round) : Leads (s.under r) (s'.under r) :=
  h.lift _ fun _ _ hs => hs.under r

/-! ### Telling -/

def host (act : Consumer → Payload → Hall → Hall × Outcome) : Host Hall where
  roster := roster
  update f s := { s with roster := f s.roster }
  call c data s := ((act c data s).1.note (act c data s).2, (act c data s).2)
  log _ s := s

variable {act : Consumer → Payload → Hall → Hall × Outcome}

theorem deliver_eq (key : String) (data : Payload) (c : Consumer) (s : Hall) :
    (host act).deliver key data c s =
      ((act c data s).1.note (act c data s).2, decide ((act c data s).2 = .completed)) := by
  unfold Host.deliver
  have hcall : (host act).call c data s =
      ((act c data s).1.note (act c data s).2, (act c data s).2) := rfl
  rw [hcall]
  cases (act c data s).2 <;> rfl

theorem leads_deliver (hact : ∀ c data s, Leads s (act c data s).1) (key : String)
    (data : Payload) (c : Consumer) (s : Hall) {r r' : Round}
    (hr : r.returned? (act c data s).2 = some r') :
    Leads (s.under r) (((host act).deliver key data c s).1.under r') := by
  rw [deliver_eq]
  exact ((hact c data s).under r).tail (.returns _ rfl hr)

theorem leads_deliverAll (hact : ∀ c data s, Leads s (act c data s).1) (key : String)
    (data : Payload) : ∀ (cs : List Consumer) (n : Nat) (s : Hall), Leads (s.under (.all cs n))
      (((host act).deliverAll key data cs s).1.under
        (.all [] (n + ((host act).deliverAll key data cs s).2))) := by
  intro cs
  induction cs with
  | nil => intro n s; exact .refl
  | cons c cs ih =>
    intro n s
    have hhead := leads_deliver hact key data c s (r := .all (c :: cs) n) rfl
    have htail := ih (if (act c data s).2 = .completed then n + 1 else n)
      ((host act).deliver key data c s).1
    refine hhead.trans ?_
    unfold Host.deliverAll
    rw [deliver_eq] at htail ⊢
    by_cases ho : (act c data s).2 = .completed
    · simpa [ho, Nat.add_right_comm, ← Nat.add_assoc] using htail
    · simpa [ho] using htail

/-- **Telling all consumers of a key is a round.** -/
theorem leads_tell (hact : ∀ c data s, Leads s (act c data s).1) (key : String) (data : Payload)
    (s : Hall) : Leads s ((host act).tell key data s).1 := by
  unfold Host.tell
  cases hcs : ((host act).roster s).attached.get? key with
  | none => exact .refl
  | some cs =>
    have hbegin : Step s (s.under (.all cs 0)) := .tell hcs
    have hall := leads_deliverAll hact key data cs 0 s
    rw [Nat.zero_add] at hall
    exact ((Relation.ReflTransGen.single hbegin).trans hall).tail (.ends rfl rfl)

/-- **Telling one consumer of a key is a round.** -/
theorem leads_tellOne (hact : ∀ c data s, Leads s (act c data s).1) (key : String) (c : Consumer)
    (data : Payload) (s : Hall) : Leads s ((host act).tellOne key c data s).1 := by
  unfold Host.tellOne
  split
  · next hc =>
    have hbegin : Step s (s.under .one) := .tellOne (List.contains_iff_mem.1 hc)
    have hone := leads_deliver hact key data c s (r := .one) rfl
    have hround := (Relation.ReflTransGen.single hbegin).trans hone
    rw [deliver_eq] at hround ⊢
    by_cases ho : (act c data s).2 = .completed
    · simp only [ho, decide_true, if_true] at hround ⊢
      exact hround.tail (.ends rfl rfl)
    · simp only [ho, decide_false, Bool.false_eq_true, if_false] at hround ⊢
      exact hround.tail (.ends rfl rfl)
  · exact .refl

/-- **Between rounds just the calls that completed are counted**, as long as a counter can show
their number: however consumers act, panic and begin further rounds, and whatever others do in the
meantime.  What happens when consumers are told is of this kind, if what they do while they are
called is. -/
theorem counted_of_leads :
    (∀ {kind : String} {s : Hall}, Leads (ofKind kind) s → s.rounds = 0 → s.completed < 2 ^ 64 →
      (s.roster.meter.deliveryCount kind).toNat = s.completed) ∧
    ∀ act : Consumer → Payload → Hall → Hall × Outcome, (∀ c data s, Leads s (act c data s).1) →
      ∀ key data s, Leads s ((host act).tell key data s).1 ∧
        ∀ c, Leads s ((host act).tellOne key c data s).1 := by
  refine ⟨fun {kind s} hs hidle hfew => ?_, fun act hact key data s =>
    ⟨leads_tell hact key data s, fun c => leads_tellOne hact key c data s⟩⟩
  have hcount := ((balanced_ofKind kind).leads hs).count
  rw [hidle, Multiset.map_zero, Multiset.sum_zero] at hcount
  have hall : s.roster.meter.deliveryCount kind = .ofNat s.completed :=
    (UInt64.add_zero _).symm.trans hcount
  rw [hall, UInt64.toNat_ofNat_of_lt' hfew]

/-- Consumers that do nothing but return, or panic. -/
def still (c : Consumer) (_ : Payload) (s : Hall) : Hall × Outcome :=
  (s, if c = "d" then .panicked .other else .completed)

/-- One consumer attaches another one and has a key told, one detaches itself and panics. -/
def lively (c : Consumer) (data : Payload) (s : Hall) : Hall × Outcome :=
  if c = "a" then
    (((host still).tell "j" data { s with roster := s.roster.attach "k" "c" }).1, .completed)
  else if c = "b" then ({ s with roster := s.roster.detach "k" "b" }, .panicked (.text "no"))
  else (s, .completed)

/-- A key is told, and then the consumer that was attached meanwhile. -/
def visited : Hall :=
  let r := ((Roster.ofKind "test").attach "k" "a").attach "k" "b"
  let s : Hall := { ofKind "test" with roster := (r.attach "j" "d").attach "j" "e" }
  ((host lively).tellOne "k" "c" ∅ ((host lively).tell "k" ∅ s).1).1

theorem leads_lively (c : Consumer) (data : Payload) (s : Hall) : Leads s (lively c data s).1 := by
  unfold lively
  split
  · exact .head (.attach "k" "c") (leads_tell (fun _ _ _ => .refl) "j" data _)
  · split
    · exact .single (.detach "k" "b")
    · exact .refl

/-- Of five calls three completed, one of them in a round within a round. -/
theorem counted_of_visited : Leads (ofKind "test") visited ∧ visited.rounds = 0 ∧
    visited.returned = [.panicked .other, .completed, .completed, .panicked (.text "no"),
      .completed] ∧
    (visited.roster.meter.deliveryCount "test").toNat = visited.completed := by
  obtain ⟨hcounted, htold⟩ := counted_of_leads
  have htells := htold lively leads_lively
  have hbegun : Leads (ofKind "test") { ofKind "test" with
      roster := ((((Roster.ofKind "test").attach "k" "a").attach "k" "b").attach "j" "d").attach
        "j" "e" } :=
    .head (.attach "k" "a") (.head (.attach "k" "b") (.head (.attach "j" "d")
      (.single (.attach "j" "e"))))
  have hleads : Leads (ofKind "test") visited :=
    (hbegun.trans (htells "k" ∅ _).1).trans ((htells "k" ∅ _).2 "c")
  have hidle : visited.rounds = 0 := rfl
  have hreturned : visited.returned = [.panicked .other, .completed, .completed,
      .panicked (.text "no"), .completed] := by decide
  have hfew : visited.completed < 2 ^ 64 := by
    rw [completed, hreturned]
    decide
  exact ⟨hleads, hidle, hreturned, hcounted hleads hidle hfew⟩

end Hall

end Discovery
