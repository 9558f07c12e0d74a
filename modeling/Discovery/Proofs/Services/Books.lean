import Discovery.Proofs.Naming.Directory
import Discovery.Proofs.Services.OneListener

/-!
# The books of a registry

A registry over a directory remembers of which kind it has registered what it registered under a
key.  The `Books` hold this together with the instances that there are, and with the requests that
calls in progress are about to make.

* `Entry`, `step_entry`: what a move comes to in the books.
* `kind_run`: a registry stays of its kind, so that endpoints keep their keys.
-/

namespace Discovery

namespace Naming.Request

/-- The kind that a registry remembers once its request has been served. -/
def noted : Request → Option Bool
  | .register _ i => some i.ephemeral
  | _ => none

end Naming.Request

namespace Registry.Services

open Naming (Directory Instance Request)

/-- The request about an instance that a call is about to make. -/
def Call.order? : Call → Option Request
  | .register key i => some (.register key i)
  | .deregister key ip port ephemeral => some (.deregister key ip port ephemeral)
  | _ => none

/-- The instances of each service, the kind that is remembered for each key, and the requests that
calls are about to make. -/
@[ext]
structure Books where
  instances : String → List Instance
  record : String → Option Bool
  orders : Nat → Option Request

namespace Books

def serve (b : Books) (q : Request) : Books :=
  { b with
    instances := fun k => if k = q.service then q.applyTo (b.instances k) else b.instances k }

def note (b : Books) (q : Request) : Books :=
  { b with record := fun k => if k = q.service then q.noted else b.record k }

/-- A call is about to make a request, or is over. -/
def order (b : Books) (n : Nat) (q : Option Request) : Books :=
  { b with orders := Function.update b.orders n q }

theorem of_orders_order {b : Books} {n n' : Nat} {x : Option Request} {q : Request}
    (h : (b.order n x).orders n' = some q) :
    n' = n ∧ x = some q ∨ n' ≠ n ∧ b.orders n' = some q := by
  change Function.update b.orders n x n' = some q at h
  rw [Function.update_apply] at h
  split at h
  · next hn => exact .inl ⟨hn, h⟩
  · next hn => exact .inr ⟨hn, h⟩

theorem of_orders_order_none {b : Books} {n n' : Nat} {q : Request}
    (h : (b.order n none).orders n' = some q) : n' ≠ n ∧ b.orders n' = some q :=
  (of_orders_order h).resolve_left fun hn => (nomatch hn.2)

theorem order_order_none {b : Books} {n : Nat} {q : Option Request} (hn : b.orders n = none) :
    (b.order n q).order n none = b := by
  refine Books.ext rfl rfl ?_
  show Function.update (Function.update b.orders n q) n none = b.orders
  rw [Function.update_idem, ← hn, Function.update_eq_self]

end Books

/-- The call that a move takes on, or whose request fails. -/
def Move.call? {κ ω : Type} : Move κ ω → Option Nat
  | .go n _ | .fail n _ => some n
  | _ => none

/-- **What a move comes to in the books.** -/
inductive Entry (kind : String) (b : Books) : Move Directory Unit → Books → Prop where
  /-- A call begins that registers. -/
  | register {n : Nat} {e : Endpoint} {data : Payload} {ephemeral : Bool} {k : String}
      (hfree : b.orders n = none) (hk : e.key kind = .ok k) :
      Entry kind b (.start n (.register e data ephemeral))
        (b.order n (some (.register k (instanceOf e data ephemeral))))
  /-- A call begins that unregisters.  It asks for the kind that is remembered now. -/
  | unregister {n : Nat} {e : Endpoint} {k : String}
      (hfree : b.orders n = none) (hk : e.key kind = .ok k) :
      Entry kind b (.start n (.unregister e))
        (b.order n (some (.deregister k e.host e.port ((b.record k).getD true))))
  /-- The request of a call is served. -/
  | done {n : Nat} {q : Request} (hq : b.orders n = some q) :
      Entry kind b (.go n ()) (((b.serve q).note q).order n none)
  /-- The request of a call fails. -/
  | failed {n : Nat} {why : Failure} {q : Request} (hq : b.orders n = some q) :
      Entry kind b (.fail n why) (b.order n none)
  /-- The request of somebody else is served. -/
  | other {q : Request} : Entry kind b (.request () q) (b.serve q)
  /-- The books are left alone. -/
  | aside {m : Move Directory Unit} (hm : ∀ n, m.call? = some n → b.orders n = none) :
      Entry kind b m b

namespace Interplay

variable {s s' : Interplay Directory} {n : Nat} {c : Call} {k : String} {q : Request}
  {m : Move Directory Unit} {ms : List (Move Directory Unit)}

def books (s : Interplay Directory) : Books where
  instances := s.client.instances
  record := s.registry.registered.get?
  orders n := (s.calls n).bind Call.order?

theorem orders_of_call (hc : s.calls n = some c) : s.books.orders n = c.order? := by
  show (s.calls n).bind Call.order? = _
  rw [hc]
  rfl

theorem orders_of_free (hn : s.calls n = none) : s.books.orders n = none := by
  show (s.calls n).bind Call.order? = none
  rw [hn]
  rfl

theorem call_of_order (hn : s.books.orders n = some q) :
    ∃ c, s.calls n = some c ∧ c.order? = some q :=
  Option.bind_eq_some_iff.1 hn

theorem orders_take (s : Interplay Directory) (n : Nat) (st : Step Services Call) :
    (s.take n st).books.orders =
      Function.update s.books.orders n (st.call.bind Call.order?) := by
  funext n'
  show (Function.update s.calls n st.call n').bind Call.order? = _
  rw [Function.update_apply, Function.update_apply]
  split <;> rfl

/-! ### What steps leave alone -/

/-- A step of a call that takes it off a key at most, and leaves the records alone. -/
structure Aside (r : Services) (st : Step Services Call) : Prop where
  registered : st.registry.registered = r.registered
  order : st.call.bind Call.order? = none

theorem aside_fail (r : Services) (operation name : String) (why : Failure) :
    Aside r (r.fail operation name why) :=
  ⟨rfl, rfl⟩

theorem registered_takeBack (r : Services) (key : String) (l : Listener) :
    (r.takeBack key l).registered = r.registered := by
  unfold takeBack
  split <;> rfl

theorem aside_admitted (r : Services) (hc : c.order? = none) : Aside r (r.admitted c) := by
  cases c with
  | enter v =>
    unfold admitted
    dsimp only
    split <;> exact ⟨rfl, rfl⟩
  | enterOut v =>
    unfold admitted
    dsimp only
    split
    · exact ⟨rfl, rfl⟩
    · split <;> exact ⟨rfl, rfl⟩
  | subscribe v l => exact ⟨rfl, rfl⟩
  | unsubscribe v l => exact ⟨rfl, rfl⟩
  | register key i => exact nomatch hc
  | deregister key ip port ephemeral => exact nomatch hc

theorem aside_answered (r : Services) (hc : c.order? = none) (reply : Except Failure Unit) :
    Aside r (r.answered c reply) := by
  cases c with
  | subscribe v l =>
    cases reply with
    | ok _ => exact ⟨rfl, rfl⟩
    | error e => exact ⟨registered_takeBack r v.key l, rfl⟩
  | unsubscribe v l => cases reply <;> exact ⟨rfl, rfl⟩
  | enter v => exact ⟨rfl, rfl⟩
  | enterOut v => exact ⟨rfl, rfl⟩
  | register key i => exact nomatch hc
  | deregister key ip port ephemeral => exact nomatch hc

theorem books_take {r : Services} {st : Step Services Call} (hst : Aside r st)
    (hr : r.registered = s.registry.registered) (hn : s.books.orders n = none) :
    (s.take n st).books = s.books := by
  refine Books.ext rfl ?_ ?_
  · show st.registry.registered.get? = _
    rw [hst.registered, hr]
    rfl
  · rw [orders_take, hst.order, ← hn, Function.update_eq_self]

theorem books_client {l : Listener} (hq : q.listener? = some l) :
    ({ s with client := (s.client.answer q).1 } : Interplay Directory).books = s.books := by
  cases q with
  | subscribe service l => rfl
  | unsubscribe service l => rfl
  | register service i => cases hq
  | deregister service ip port ephemeral => cases hq

/-! ### Calls on instances -/

theorem books_answer (s : Interplay Directory) (q : Request) :
    ({ s with client := (s.client.answer q).1 } : Interplay Directory).books = s.books.serve q :=
  Books.ext (funext fun k => Directory.instances_answer s.client q k) rfl rfl

theorem books_goOn (s : Interplay Directory) (n : Nat) (c : Call) :
    (s.take n (s.registry.goOn c)).books = s.books.order n c.order? :=
  Books.ext rfl rfl (orders_take s n _)

theorem books_served (s : Interplay Directory) (n : Nat) (hc : c.order? = some q) :
    (s.take n (s.registry.answered c (.ok ()))).books = (s.books.note q).order n none := by
  cases c with
  | register key i =>
    cases hc
    exact Books.ext rfl (funext fun k => Table.get?_insert _ _ _ _) (orders_take s n _)
  | deregister key ip port ephemeral =>
    cases hc
    exact Books.ext rfl (funext fun k => Table.get?_erase _ _ _) (orders_take s n _)
  | _ => exact nomatch hc

theorem books_failed (s : Interplay Directory) (n : Nat) (hc : c.order? = some q)
    (why : Failure) :
    (s.take n (s.registry.answered c (.error why))).books = s.books.order n none := by
  cases c with
  | register key i => exact Books.ext rfl rfl (orders_take s n _)
  | deregister key ip port ephemeral => exact Books.ext rfl rfl (orders_take s n _)
  | _ => exact nomatch hc

theorem need_of_order (hc : c.order? = some q) : c.need = .ask q := by
  cases c with
  | register key i => exact congrArg Need.ask (Option.some.inj hc)
  | deregister key ip port ephemeral => exact congrArg Need.ask (Option.some.inj hc)
  | _ => exact nomatch hc

/-- **The request of a call is served**, and the call is over. -/
theorem books_go (hc : c.order? = some q) :
    (s.go Directory.provider n () c).books = ((s.books.serve q).note q).order n none := by
  rw [go_ask (need_of_order hc) rfl, ← books_answer]
  exact books_served { s with client := (s.client.answer q).1 } n hc

/-! ### A call that nothing comes between -/

theorem start_register {r : Services} {e : Endpoint} (hk : e.key r.core.kind = .ok k)
    (data : Payload) (ephemeral : Bool) :
    r.start (.register e data ephemeral) = r.goOn (.register k (instanceOf e data ephemeral)) := by
  unfold start
  dsimp only
  rw [hk]

theorem start_unregister {r : Services} {e : Endpoint} (hk : e.key r.core.kind = .ok k) :
    r.start (.unregister e) =
      r.goOn (.deregister k e.host e.port (r.registered.getD k true)) := by
  unfold start
  dsimp only
  rw [hk]

theorem call_answered (r : Services) (hc : c.order? = some q) (reply : Except Failure Unit) :
    (r.answered c reply).call = none := by
  cases c with
  | register key i => cases reply <;> rfl
  | deregister key ip port ephemeral => cases reply <;> rfl
  | _ => exact nomatch hc

theorem calls_answered {u : Interplay Directory} (hn : s.calls n = none)
    (hq : c.order? = some q) (hu : u.calls = Function.update s.calls n (some c))
    (reply : Except Failure Unit) :
    (u.take n (u.registry.answered c reply)).calls = s.calls := by
  show Function.update u.calls n _ = s.calls
  rw [call_answered _ hq, hu, Function.update_idem, ← hn, Function.update_eq_self]

/-- The moves of a call that nothing comes between, and whose request may fail. -/
def alone (n : Nat) (a : Action) : Option Failure → List (Move Directory Unit)
  | none => [.start n a, .go n ()]
  | some why => [.start n a, .fail n why]

theorem step_start {a : Action} (hn : s.calls n = none)
    (ha : s.registry.start a = s.registry.goOn c) :
    s.step Directory.provider (.start n a) = some (s.take n (s.registry.goOn c)) := by
  dsimp only [step]
  rw [hn, ha]

theorem step_fail (why : Failure) (hn : s.calls n = some c) (hq : c.order? = some q) :
    s.step Directory.provider (.fail n why) =
      some (s.take n (s.registry.answered c (.error why))) := by
  have hlose : s.lose q = s := by
    cases c <;> cases hq <;> rfl
  dsimp only [step]
  rw [hn]
  dsimp only
  rw [need_of_order hq]
  dsimp only
  rw [hlose]
  rfl

/-- **A call that nothing comes between** is served and noted, or fails and changes nothing. -/
theorem exists_alone {a : Action} (hn : s.calls n = none)
    (ha : s.registry.start a = s.registry.goOn c) (hq : c.order? = some q)
    (failure : Option Failure) : ∃ s', s.run Directory.provider (alone n a failure) = some s' ∧
      s'.books = (if failure = none then (s.books.serve q).note q else s.books) ∧
      s'.calls = s.calls := by
  have hstart := step_start hn ha
  have hbooks := books_goOn s n c
  have hcalls : (s.take n (s.registry.goOn c)).calls = Function.update s.calls n (some c) := rfl
  generalize s.take n (s.registry.goOn c) = t at hstart hbooks hcalls
  have hcall : t.calls n = some c := hcalls ▸ Function.update_self n _ s.calls
  cases failure with
  | none =>
    have hgo : t.step Directory.provider (.go n ()) = some (t.go Directory.provider n () c) := by
      dsimp only [step]
      rw [hcall]
      rfl
    refine ⟨t.go Directory.provider n () c, ?_, ?_, ?_⟩
    · show (s.step _ _).bind (fun t => (t.step _ _).bind some) = _
      rw [hstart, Option.bind_some, hgo, Option.bind_some]
    · rw [books_go hq, hbooks]
      exact Books.order_order_none (b := (s.books.serve q).note q) (orders_of_free hn)
    · rw [go_ask (need_of_order hq) rfl]
      exact calls_answered (u := { t with client := (t.client.answer q).1 }) hn hq hcalls (.ok ())
  | some why =>
    refine ⟨t.take n (t.registry.answered c (.error why)), ?_, ?_, ?_⟩
    · show (s.step _ _).bind (fun t => (t.step _ _).bind some) = _
      rw [hstart, Option.bind_some, step_fail why hcall hq, Option.bind_some]
    · rw [books_failed t n hq, hbooks]
      exact Books.order_order_none (orders_of_free hn)
    · exact calls_answered hn hq hcalls _

/-! ### Any move -/

theorem entry_start {a : Action} (hfree : s.calls n = none) :
    Entry s.core.kind s.books (.start n a) (s.take n (s.registry.start a)).books := by
  have hn := orders_of_free hfree
  have haside : ∀ {st : Step Services Call}, Aside s.registry st →
      Entry s.core.kind s.books (.start n a) (s.take n st).books := by
    intro st hst
    rw [books_take hst rfl hn]
    exact .aside nofun
  cases a <;> unfold start <;> dsimp only
  case register e data ephemeral =>
    cases hk : e.key s.registry.core.kind with
    | ok key =>
      dsimp only
      rw [books_goOn]
      exact .register hn hk
    | error f => exact haside (aside_fail ..)
  case unregister e =>
    cases hk : e.key s.registry.core.kind with
    | ok key =>
      dsimp only
      rw [books_goOn]
      exact .unregister hn hk
    | error f => exact haside (aside_fail ..)
  case subscribe e c =>
    cases e.key s.registry.core.kind with
    | ok key => exact haside ⟨rfl, rfl⟩
    | error f => exact haside (aside_fail ..)
  case unsubscribe e c =>
    cases e.key s.registry.core.kind with
    | ok key => exact haside ⟨rfl, rfl⟩
    | error f => exact haside (aside_fail ..)

theorem entry_go (hc : s.calls n = some c) :
    Entry s.core.kind s.books (.go n ()) (s.go Directory.provider n () c).books := by
  have hn := orders_of_call hc
  cases ho : c.order? with
  | some q =>
    rw [books_go ho]
    exact .done (hn.trans ho)
  | none =>
    rw [ho] at hn
    have haside : ∀ {t : Nat}, c.need = .turn t →
        (s.go Directory.provider n () c).books = s.books := by
      intro t hneed
      rw [go_look hneed]
      split
      · exact books_take (s := s.look t) (aside_admitted (s.look t).registry ho) rfl hn
      · rfl
    have hasked : ∀ {q : Request} {l : Listener}, c.need = .ask q → q.listener? = some l →
        (s.go Directory.provider n () c).books = s.books := by
      intro q l hneed hl
      rw [go_ask hneed rfl]
      refine Eq.trans ?_ (books_client hl)
      exact books_take (s := { s with client := (s.client.answer q).1 })
        (aside_answered s.registry ho _) rfl hn
    have hbooks : (s.go Directory.provider n () c).books = s.books := by
      cases c with
      | enter v => exact haside rfl
      | enterOut v => exact haside rfl
      | subscribe v l => exact hasked rfl rfl
      | unsubscribe v l => exact hasked rfl rfl
      | register key i => exact nomatch ho
      | deregister key ip port ephemeral => exact nomatch ho
    rw [hbooks]
    exact .aside fun n' hn' => Option.some.inj hn' ▸ hn

theorem entry_fail {why : Failure} (hc : s.calls n = some c) (hneed : c.need = .ask q) :
    Entry s.core.kind s.books (.fail n why)
      ((s.lose q).take n (s.registry.resume c (.answered (.error why)))).books := by
  have hn := orders_of_call hc
  have hlose : s.lose q = { s with lost := (s.lose q).lost } := by cases q <;> rfl
  rw [hlose]
  cases ho : c.order? with
  | some q' =>
    have hbooks := books_failed { s with lost := (s.lose q).lost } n ho why
    exact hbooks ▸ .failed (hn.trans ho)
  | none =>
    rw [ho] at hn
    have hbooks := books_take (s := { s with lost := (s.lose q).lost })
      (aside_answered s.registry ho (.error why)) rfl hn
    refine Eq.subst (motive := Entry _ _ _) hbooks.symm (.aside fun n' hn' => ?_)
    exact Option.some.inj hn' ▸ hn

/-- **Each move is such an entry**, as long as the directory does nothing by itself. -/
theorem step_entry (hm : ∀ c, m ≠ .change c) (hs : s.step Directory.provider m = some s') :
    Entry s.core.kind s.books m s'.books := by
  cases m with
  | start n a =>
    dsimp only [step] at hs
    cases hfree : s.calls n with
    | none =>
      rw [hfree] at hs
      exact Option.some.inj hs ▸ entry_start hfree
    | some c =>
      rw [hfree] at hs
      exact nomatch hs
  | go n w =>
    obtain ⟨c, hc, rfl⟩ := Option.map_eq_some_iff.1 hs
    exact entry_go hc
  | fail n why =>
    dsimp only [step] at hs
    cases hc : s.calls n with
    | none =>
      rw [hc] at hs
      exact nomatch hs
    | some c =>
      rw [hc] at hs
      dsimp only at hs
      split at hs
      · next q hneed => exact Option.some.inj hs ▸ entry_fail hc hneed
      · exact nomatch hs
  | request w q =>
    obtain ⟨_, hs⟩ := Option.ite_none_left_eq_some.1 hs
    obtain rfl := Option.some.inj hs
    exact books_answer s q ▸ .other
  | change c => exact absurd rfl (hm c)
  | count m =>
    obtain rfl := Option.some.inj hs
    exact .aside nofun

/-! ### The kind of a registry -/

variable {κ ω : Type} {p : Naming.Provider κ ω} {t t' : Interplay κ}

theorem Effect.kind {m : Move κ ω} (he : Effect p t m t') : t'.core.kind = t.core.kind := by
  cases he with
  | beside hb =>
    obtain ⟨m, hm⟩ := hb.core
    rw [hm]
    rfl
  | part hc hh hl => exact Roster.kind_detach ..
  | forget hc hh hnil hi => exact Roster.kind_detach ..
  | @takeBack n why v l m hc =>
    show (t.registry.takeBack v.key l).core.kind = _
    unfold Services.takeBack
    split <;> rfl
  | _ => rfl

/-- **A registry stays of its kind.** -/
theorem kind_run {ms : List (Move κ ω)} (hs : t.run p ms = some t') :
    t'.core.kind = t.core.kind := by
  induction ms generalizing t with
  | nil => exact Option.some.inj hs ▸ rfl
  | cons m ms ih =>
    obtain ⟨u, hu, hs⟩ := Option.bind_eq_some_iff.1 hs
    exact (ih hs).trans (step_effect hu).kind

end Interplay

end Registry.Services

end Discovery
