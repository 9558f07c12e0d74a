import Discovery.Proofs.Services.Books
import Mathlib.Data.List.Induction

/-!
# Removing what is registered

A directory removes an instance only if its kind is the one that is asked for.  A call that
unregisters asks for the kind that is remembered when it begins, and once it has been served,
nothing is remembered any more.  So what is registered can be removed as long as the registry
remembers of what kind it is (`Tidy`).  That goes wrong in one case only: an instance that is not
ephemeral is registered while a call is about to remove an ephemeral one, which is then served
(`Overtaken`).  It removes nothing, but it has the kind forgotten.

* `Tidy.entry`: what a move keeps, unless it serves such a call.
* `removable_or_overtaken_of_run`: what is registered under a key can be removed after any run, or
  a call has been overtaken.
* `stuck_of_overtaking`: then it may stay for good.
-/

namespace Discovery

/-- A request is about an instance at an address. -/
def Naming.Request.IsAt (ip : String) (port : UInt16) : Naming.Request → Prop
  | .register _ i => i.isAt ip port = true
  | .deregister _ ip' port' _ => ip' = ip ∧ port' = port
  | _ => False

namespace Registry.Services

open Naming (Directory Instance Request)

/-! ### The instances at an address -/

namespace Books

variable {b : Books} {i : Instance} {k ip : String} {port : UInt16} {ephemeral : Bool} {q : Request}

def present (b : Books) (k ip : String) (port : UInt16) : List Instance :=
  (b.instances k).filter (·.isAt ip port)

theorem present_serve (b : Books) (q : Request) (k ip : String) (port : UInt16) :
    (b.serve q).present k ip port =
      if k = q.service then (q.applyTo (b.instances k)).filter (·.isAt ip port)
      else b.present k ip port := by
  show List.filter _ (if k = q.service then _ else _) = _
  split <;> rfl

theorem present_register (hi : i.isAt ip port = true) :
    (b.serve (.register k i)).present k ip port =
      { i with service := k } :: (b.present k ip port).tail := by
  obtain ⟨rfl, rfl⟩ := Instance.isAt_iff.1 hi
  refine (present_serve ..).trans ((if_pos rfl).trans ?_)
  exact Directory.filter_place { i with service := k } (b.instances k)

theorem present_register_of_not_isAt (hi : i.isAt ip port = false) :
    (b.serve (.register k i)).present k ip port = b.present k ip port := by
  refine (present_serve ..).trans ((if_pos rfl).trans ?_)
  exact Directory.filter_place_of_not_isAt (i := { i with service := k }) hi (b.instances k)

theorem present_deregister (b : Books) (k ip : String) (port : UInt16) (ephemeral : Bool) :
    (b.serve (.deregister k ip port ephemeral)).present k ip port =
      (b.present k ip port).filter (·.ephemeral != ephemeral) := by
  refine (present_serve ..).trans ((if_pos rfl).trans ?_)
  show ((b.instances k).filter _).filter _ = ((b.instances k).filter _).filter _
  rw [List.filter_filter, List.filter_filter]
  refine List.filter_congr fun i _ => ?_
  cases i.isAt ip port <;> simp [bne]

theorem present_sublist (hq : ∀ i, q ≠ .register k i) :
    ((b.serve q).present k ip port).Sublist (b.present k ip port) := by
  rw [present_serve]
  split
  · next hk =>
    refine List.Sublist.filter _ ?_
    cases q with
    | register service i => exact absurd (congrArg (Request.register · i) hk.symm) (hq i)
    | deregister service ip' port' ephemeral => exact List.filter_sublist
    | subscribe service l => exact .refl _
    | unsubscribe service l => exact .refl _
  · exact .refl _

end Books

/-! ### What is remembered -/

/-- The registry remembers of which kind the instance at an address is, if there is one, and its
calls are about this address. -/
structure Tidy (k ip : String) (port : UInt16) (b : Books) : Prop where
  orders : ∀ n q, b.orders n = some q → q.service = k → q.IsAt ip port
  one : (b.present k ip port).length ≤ 1
  known : ∀ i ∈ b.present k ip port, i.ephemeral = (b.record k).getD true

/-- What is asked about a key is about one address, and nobody else registers there. -/
def Move.KeepsTo (kind k ip : String) (port : UInt16) : Move Directory Unit → Prop
  | .start _ a => a.endpoint.key kind = .ok k → a.endpoint.host = ip ∧ a.endpoint.port = port
  | .request _ (.register service i) => service = k → i.isAt ip port = false
  | .change _ => False
  | _ => True

section

variable {b b' : Books} {kind k ip : String} {port : UInt16} {m : Move Directory Unit} {n : Nat}
  {q : Request}

theorem Tidy.order (h : Tidy k ip port b) (n : Nat) {q : Option Request}
    (hq : ∀ x, q = some x → x.service = k → x.IsAt ip port) : Tidy k ip port (b.order n q) := by
  refine ⟨fun n' x hx hk => ?_, h.one, h.known⟩
  rcases Books.of_orders_order hx with ⟨-, hx⟩ | ⟨-, hx⟩
  · exact hq x hx hk
  · exact h.orders n' x hx hk

theorem Tidy.present_register (h : Tidy k ip port b) {i : Instance}
    (hi : i.isAt ip port = true) :
    (b.serve (.register k i)).present k ip port = [{ i with service := k }] := by
  have htail : (b.present k ip port).tail = [] := by
    refine List.eq_nil_of_length_eq_zero ?_
    have hone := h.one
    rw [List.length_tail]
    omega
  rw [Books.present_register hi, htail]

theorem Tidy.of_sublist (h : Tidy k ip port b)
    (hs : ((b.serve q).present k ip port).Sublist (b.present k ip port)) :
    Tidy k ip port (b.serve q) :=
  ⟨h.orders, hs.length_le.trans h.one, fun i hi => h.known i (hs.subset hi)⟩

/-- **The request of a call is served**, and the registry remembers the kind of what is there,
unless an ephemeral instance was to go where there is one of the other kind. -/
theorem Tidy.done (h : Tidy k ip port b) (hq : b.orders n = some q)
    (hstale : q = .deregister k ip port true → ∀ i ∈ b.present k ip port, i.ephemeral = true) :
    Tidy k ip port ((b.serve q).note q) := by
  have hpresent : ((b.serve q).note q).present k ip port = (b.serve q).present k ip port := rfl
  by_cases hk : q.service = k
  · have hrecord : ((b.serve q).note q).record k = q.noted := if_pos hk.symm
    cases q with
    | register service i =>
      obtain rfl : service = k := hk
      have hnew := h.present_register (h.orders n _ hq rfl)
      refine ⟨h.orders, ?_, fun j hj => ?_⟩
      · rw [hpresent, hnew]
        exact Nat.le_refl 1
      · rw [hpresent, hnew, List.mem_singleton] at hj
        rw [hrecord, hj]
        rfl
    | deregister service ip' port' ephemeral =>
      obtain rfl : service = k := hk
      obtain ⟨rfl, rfl⟩ := h.orders n _ hq rfl
      refine ⟨h.orders, (Books.present_sublist ?_).length_le.trans h.one, fun i hi => ?_⟩
      · exact nofun
      rw [hpresent, Books.present_deregister, List.mem_filter, bne_iff_ne] at hi
      rw [hrecord]
      cases ephemeral with
      | false => exact (Bool.not_eq_false _).mp hi.2
      | true => exact hstale rfl i hi.1
    | subscribe service l => exact (h.orders n _ hq hk).elim
    | unsubscribe service l => exact (h.orders n _ hq hk).elim
  · have hrecord : ((b.serve q).note q).record k = b.record k := if_neg (Ne.symm hk)
    have hsame : (b.serve q).present k ip port = b.present k ip port := by
      rw [Books.present_serve, if_neg (Ne.symm hk)]
    refine ⟨h.orders, ?_, fun i hi => ?_⟩
    · rw [hpresent, hsame]
      exact h.one
    · rw [hpresent, hsame] at hi
      rw [hrecord]
      exact h.known i hi

/-- **What a move keeps**, unless it serves a call that asks for an ephemeral instance where there
is one of the other kind. -/
theorem Tidy.entry (h : Tidy k ip port b) (he : Entry kind b m b')
    (hm : m.KeepsTo kind k ip port)
    (hstale : ∀ n, m = .go n () → b.orders n = some (.deregister k ip port true) →
      ∀ i ∈ b.present k ip port, i.ephemeral = true) : Tidy k ip port b' := by
  cases he with
  | @register n e data ephemeral k' hfree hk =>
    refine h.order n fun x hx hxk => ?_
    obtain rfl := Option.some.inj hx
    obtain rfl : k' = k := hxk
    obtain ⟨rfl, rfl⟩ := hm hk
    exact (instanceOf e data ephemeral).isAt_self
  | @unregister n e k' hfree hk =>
    refine h.order n fun x hx hxk => ?_
    obtain rfl := Option.some.inj hx
    obtain rfl : k' = k := hxk
    exact hm hk
  | @done n q hq => exact (h.done hq fun he => hstale n rfl (he ▸ hq)).order n nofun
  | @failed n why q hq => exact h.order n nofun
  | @other q =>
    by_cases hq : ∃ i, q = .register k i
    · obtain ⟨i, rfl⟩ := hq
      refine h.of_sublist ?_
      rw [Books.present_register_of_not_isAt (hm rfl)]
    · exact h.of_sublist (Books.present_sublist fun i hi => hq ⟨i, hi⟩)
  | aside => exact h

end

namespace Interplay

variable {s s' t : Interplay Directory} {e : Endpoint} {k ip : String} {port : UInt16} {n : Nat}
  {c : Call} {q : Request} {x : Move Directory Unit} {ms : List (Move Directory Unit)}

/-! ### Calls that are overtaken -/

/-- In a run, an instance that is not ephemeral is registered while a call is about to remove an
ephemeral one, and the call still is. -/
def Crossed (s : Interplay Directory) (k ip : String) (port : UInt16)
    (ms : List (Move Directory Unit)) (n : Nat) : Prop :=
  ∃ before m mid t i, ms = before ++ .go m () :: mid ∧ s.run Directory.provider before = some t ∧
    t.calls m = some (.register k i) ∧ i.ephemeral = false ∧
    t.calls n = some (.deregister k ip port true) ∧
    ∀ x ∈ mid, x.call? ≠ some n

/-- In a run, an instance that is not ephemeral is registered while a call is about to remove an
ephemeral one, and then the call is served. -/
def Overtaken (s : Interplay Directory) (k ip : String) (port : UInt16)
    (ms : List (Move Directory Unit)) : Prop :=
  ∃ before n after, ms = before ++ .go n () :: after ∧ s.Crossed k ip port before n

theorem Crossed.concat (h : s.Crossed k ip port ms n) (hx : x.call? ≠ some n) :
    s.Crossed k ip port (ms ++ [x]) n := by
  obtain ⟨before, m, mid, t, i, rfl, ht, hm, hi, hn, hmid⟩ := h
  refine ⟨before, m, mid ++ [x], t, i, by simp, ht, hm, hi, hn, fun y hy => ?_⟩
  rcases List.mem_append.1 hy with hy | hy
  · exact hmid y hy
  · obtain rfl := List.mem_singleton.1 hy
    exact hx

theorem Overtaken.concat (h : s.Overtaken k ip port ms) (x : Move Directory Unit) :
    s.Overtaken k ip port (ms ++ [x]) := by
  obtain ⟨before, n, after, rfl, hn⟩ := h
  exact ⟨before, n, after ++ [x], by simp, hn⟩

theorem calls_of_register {i : Instance} (hn : s.books.orders n = some (.register k i)) :
    s.calls n = some (.register k i) := by
  obtain ⟨c, hc, ho⟩ := call_of_order hn
  cases c <;> cases ho
  exact hc

theorem calls_of_deregister {ephemeral : Bool}
    (hn : s.books.orders n = some (.deregister k ip port ephemeral)) :
    s.calls n = some (.deregister k ip port ephemeral) := by
  obtain ⟨c, hc, ho⟩ := call_of_order hn
  cases c <;> cases ho
  exact hc

/-- A call that is about to remove an ephemeral instance where there is one of the other kind has
been crossed by a registration. -/
def Warned (s : Interplay Directory) (k ip : String) (port : UInt16)
    (ms : List (Move Directory Unit)) (b : Books) : Prop :=
  ∀ n, b.orders n = some (.deregister k ip port true) →
    ∀ i ∈ b.present k ip port, i.ephemeral = false → s.Crossed k ip port ms n

/-- **Calls are crossed by registrations only.** -/
theorem Warned.entry (h : s.Warned k ip port ms t.books) (htidy : Tidy k ip port t.books)
    (ht : s.run Directory.provider ms = some t) {kind : String} {b' : Books}
    (he : Entry kind t.books x b') (hx : x.KeepsTo kind k ip port) :
    s.Warned k ip port (ms ++ [x]) b' := by
  intro n hn i hi hkind
  cases he with
  | @register n' e data ephemeral k' hfree hk =>
    rcases Books.of_orders_order hn with ⟨-, hq⟩ | ⟨-, hn⟩
    · exact nomatch hq
    · exact (h n hn i hi hkind).concat nofun
  | @unregister n' e k' hfree hk =>
    rcases Books.of_orders_order hn with ⟨-, hq⟩ | ⟨-, hn⟩
    · -- a call that begins asks for the kind that there is
      injection Option.some.inj hq with hk' _ _ hkind'
      have hknown := htidy.known i hi
      rw [← hk', hkind', hkind] at hknown
      exact nomatch hknown
    · exact (h n hn i hi hkind).concat nofun
  | @done n' q hq =>
    obtain ⟨hne, hn⟩ := Books.of_orders_order_none hn
    by_cases hreg : ∃ j, q = .register k j
    · -- the registration crosses all calls that are about to remove an ephemeral instance
      obtain ⟨j, rfl⟩ := hreg
      have hmem : i ∈ (t.books.serve (.register k j)).present k ip port := hi
      rw [htidy.present_register (htidy.orders n' _ hq rfl), List.mem_singleton] at hmem
      rw [hmem] at hkind
      exact ⟨ms, n', [], t, j, rfl, ht, calls_of_register hq, hkind, calls_of_deregister hn,
        fun _ hy => absurd hy List.not_mem_nil⟩
    · have hmem := (Books.present_sublist fun j hj => hreg ⟨j, hj⟩).subset hi
      exact (h n hn i hmem hkind).concat fun hgo => hne (Option.some.inj hgo).symm
  | @failed n' why q hq =>
    obtain ⟨hne, hn⟩ := Books.of_orders_order_none hn
    exact (h n hn i hi hkind).concat fun hf => hne (Option.some.inj hf).symm
  | @other q =>
    have hmem : i ∈ t.books.present k ip port := by
      by_cases hreg : ∃ j, q = .register k j
      · obtain ⟨j, rfl⟩ := hreg
        rw [Books.present_register_of_not_isAt (hx rfl)] at hi
        exact hi
      · exact (Books.present_sublist fun j hj => hreg ⟨j, hj⟩).subset hi
    exact (h n hn i hmem hkind).concat nofun
  | aside hcall =>
    exact (h n hn i hi hkind).concat fun hx => nomatch (hcall n hx).symm.trans hn

/-- **Any run** keeps the registry aware of what it has registered, or overtakes a call. -/
theorem tidy_or_overtaken_of_run (htidy : Tidy k ip port s.books)
    (hwarned : s.Warned k ip port [] s.books)
    (hms : ∀ x ∈ ms, x.KeepsTo s.core.kind k ip port)
    (hs : s.run Directory.provider ms = some s') :
    s.Overtaken k ip port ms ∨ Tidy k ip port s'.books ∧ s.Warned k ip port ms s'.books := by
  induction ms using List.reverseRecOn generalizing s' with
  | nil => exact .inr (Option.some.inj hs ▸ ⟨htidy, hwarned⟩)
  | append_singleton ms x ih =>
    rw [run_append] at hs
    obtain ⟨t, ht, hs⟩ := Option.bind_eq_some_iff.1 hs
    obtain ⟨s'', hx, hs⟩ := Option.bind_eq_some_iff.1 hs
    obtain rfl := Option.some.inj hs
    have hkeeps : x.KeepsTo s.core.kind k ip port :=
      hms x (List.mem_append_right _ (List.mem_singleton_self x))
    have he : Entry s.core.kind t.books x s''.books :=
      kind_run ht ▸ step_entry (fun c hc => by subst hc; exact hkeeps) hx
    rcases ih (fun y hy => hms y (List.mem_append_left _ hy)) ht with h | ⟨h, hw⟩
    · exact .inl (h.concat x)
    · by_cases hstale : ∃ n, x = .go n () ∧ t.books.orders n = some (.deregister k ip port true) ∧
          ∃ i ∈ t.books.present k ip port, i.ephemeral = false
      · obtain ⟨n, rfl, hn, i, hi, hkind⟩ := hstale
        exact .inl ⟨ms, n, [], rfl, hw n hn i hi hkind⟩
      · refine .inr ⟨h.entry he hkeeps fun n hgo hn i hi => ?_, hw.entry h ht he hkeeps⟩
        by_contra hkind
        exact hstale ⟨n, hgo, hn, i, hi, Bool.eq_false_iff.2 hkind⟩

/-- **What is registered can be removed, or a call has been overtaken.**  Whatever calls are made
about a key, however they interleave and whichever of their requests fail: one further call that
unregisters leaves no instance at the address, unless an instance that is not ephemeral was
registered while a call was about to remove an ephemeral one, which was served afterwards. -/
theorem removable_or_overtaken_of_run {d : Directory} {id : Nat}
    (hk : e.key Services.kind = .ok k) (hnew : ∀ i ∈ d.instances k, i.isAt e.host e.port = false)
    (hms : ∀ x ∈ ms, x.KeepsTo Services.kind k e.host e.port)
    (hs : (begin d id).run Directory.provider ms = some s) (hn : s.calls n = none) :
    (∃ s', s.run Directory.provider [.start n (.unregister e), .go n ()] = some s' ∧
      ∀ i ∈ s'.client.instances k, i.isAt e.host e.port = false) ∨
    (begin d id).Overtaken k e.host e.port ms := by
  have hnil : (begin d id).books.present k e.host e.port = [] :=
    List.filter_eq_nil_iff.2 fun i hi => Bool.eq_false_iff.1 (hnew i hi)
  have htidy : Tidy k e.host e.port (begin d id).books := by
    refine ⟨nofun, ?_, fun i hi => ?_⟩ <;> rw [hnil] at *
    · exact Nat.zero_le 1
    · exact nomatch hi
  rcases tidy_or_overtaken_of_run htidy nofun hms hs with h | ⟨h, _⟩
  · exact .inr h
  · have hkind : e.key s.core.kind = .ok k := (kind_run hs).symm ▸ hk
    obtain ⟨s', hs', hbooks, _⟩ := exists_alone hn (start_unregister hkind) rfl none
    refine .inl ⟨s', hs', fun i hi => ?_⟩
    by_contra hat
    -- what is at the address is of the kind that is remembered, so it goes
    have hmem : i ∈ s'.books.present k e.host e.port :=
      List.mem_filter.2 ⟨hi, (Bool.not_eq_false _).mp hat⟩
    rw [hbooks, if_pos rfl] at hmem
    have hleft := (Books.present_deregister s.books k e.host e.port _) ▸ hmem
    obtain ⟨hi, hother⟩ := List.mem_filter.1 hleft
    exact bne_iff_ne.1 hother (h.known i hi)

/-- Somebody unregisters while an ephemeral instance takes the place of one that is not. -/
def replaced : List (Move Directory Unit) :=
  [.start 0 (.register shop ∅ false), .go 0 (), .start 1 (.unregister shop),
    .start 0 (.register shop ∅ true), .go 0 (), .go 1 ()]

theorem removable_or_overtaken_of_replaced : ∃ s,
    (begin (∅ : Directory) 7).run Directory.provider replaced = some s ∧
      ((∃ s', s.run Directory.provider [.start 0 (.unregister shop), .go 0 ()] = some s' ∧
        ∀ i ∈ s'.client.instances "nacos://h:1/a", i.isAt "h" 1 = false) ∨
      (begin (∅ : Directory) 7).Overtaken "nacos://h:1/a" "h" 1 replaced) := by
  have hms : ∀ x ∈ replaced, x.KeepsTo Services.kind "nacos://h:1/a" shop.host shop.port := by
    simp only [replaced, List.forall_mem_cons]
    exact ⟨fun _ => ⟨rfl, rfl⟩, trivial, fun _ => ⟨rfl, rfl⟩, fun _ => ⟨rfl, rfl⟩, trivial,
      trivial, nofun⟩
  obtain ⟨s, hs, hn⟩ : ∃ s, (begin (∅ : Directory) 7).run Directory.provider replaced = some s ∧
      s.calls 0 = none := ⟨_, rfl, rfl⟩
  exact ⟨s, hs, removable_or_overtaken_of_run (e := shop) rfl nofun hms hs hn⟩

/-- Somebody unregisters what is not there, and an instance that is not ephemeral is registered
before the request is made. -/
def overtaking : List (Move Directory Unit) :=
  [.start 0 (.unregister shop), .start 1 (.register shop ∅ false), .go 1 (), .go 0 ()]

/-- **An instance may stay for good**: all calls are over, and a further one that unregisters does
not remove it. -/
theorem stuck_of_overtaking : ∃ s s',
    (begin (∅ : Directory) 7).run Directory.provider overtaking = some s ∧
      (∀ n, s.calls n = none) ∧
      s.run Directory.provider [.start 0 (.unregister shop), .go 0 ()] = some s' ∧
      ∃ i ∈ s'.client.instances "nacos://h:1/a", i.isAt "h" 1 = true := by
  refine ⟨_, _, rfl, fun n => ?_, rfl, { instanceOf shop ∅ false with
    service := "nacos://h:1/a" }, by decide, by decide⟩
  rcases n with _ | _ | n <;> rfl

end Interplay

end Registry.Services

end Discovery
