import Discovery.Proofs.Endpoint.Key
import Discovery.Proofs.Services.Books

/-!
# The registry knows what it has registered

A registry that has a directory for itself makes one call after the other, and some requests fail.
Then it remembers a kind for a key if and only if there is an instance at the service of the key.
There is only one, it is of this kind, and it is at the address that the key names (`Agrees`).

* `Agrees.register`, `Agrees.unregister`: what requests that succeed keep.
* `exists_errand`: what a call keeps, whether or not it gets as far as a request.
* `one_instance_of_errands`: what can be said after any calls; in particular, a call that
  unregisters leaves nothing behind, if only its own request succeeds.
-/

namespace Discovery.Registry.Services

open Naming (Directory Instance Request)

/-- A call that registers or unregisters, and how its request fails if it does. -/
structure Errand where
  endpoint : Endpoint
  /-- What is registered, and of which kind.  Without it, the endpoint is unregistered. -/
  offer : Option (Payload × Bool)
  failure : Option Failure

namespace Errand

def action (x : Errand) : Action :=
  match x.offer with
  | some (data, ephemeral) => .register x.endpoint data ephemeral
  | none => .unregister x.endpoint

/-- The moves of a call that nothing comes between.  It makes a request if the endpoint has a
key. -/
def moves (kind : String) (x : Errand) : List (Move Directory Unit) :=
  match x.endpoint.key kind with
  | .ok _ => Interplay.alone 0 x.action x.failure
  | .error _ => [.start 0 x.action]

end Errand

/-! ### The tables agree -/

/-- The registry remembers the kind of what is registered: one instance for a key, at the address
that the key names. -/
structure Agrees (b : Books) : Prop where
  absent : ∀ k, b.record k = none → b.instances k = []
  known : ∀ k ephemeral, b.record k = some ephemeral → ∃ (e : Endpoint) (i : Instance),
    '/' ∉ e.host.toList ∧ e.key kind = .ok k ∧ b.instances k = [i] ∧
      i.isAt e.host e.port = true ∧ i.ephemeral = ephemeral

section

variable {b : Books} {e : Endpoint} {k : String}

theorem Agrees.isAt (h : Agrees b) {ephemeral : Bool} (hr : b.record k = some ephemeral) :
    ∃ i, b.instances k = [i] ∧ i.ephemeral = ephemeral ∧
      ∀ e : Endpoint, '/' ∉ e.host.toList → e.key kind = .ok k → i.isAt e.host e.port = true := by
  obtain ⟨e, i, hslash, hk, hi, hat, hkind⟩ := h.known k ephemeral hr
  refine ⟨i, hi, hkind, fun e' hslash' hk' => ?_⟩
  obtain ⟨hhost, hport⟩ := Endpoint.address_of_key hslash' hslash hk' hk
  rw [hhost, hport]
  exact hat

/-- A request is served and noted: it is enough to look at its service. -/
theorem Agrees.served (h : Agrees b) {q : Request} (hq : q.service = k)
    (habsent : q.noted = none → q.applyTo (b.instances k) = [])
    (hknown : ∀ ephemeral, q.noted = some ephemeral → ∃ (e : Endpoint) (i : Instance),
      '/' ∉ e.host.toList ∧ e.key kind = .ok k ∧ q.applyTo (b.instances k) = [i] ∧
        i.isAt e.host e.port = true ∧ i.ephemeral = ephemeral) :
    Agrees ((b.serve q).note q) := by
  subst hq
  have hrecord : ∀ k', ((b.serve q).note q).record k' =
      if k' = q.service then q.noted else b.record k' := fun _ => rfl
  have hplace : ∀ k', ((b.serve q).note q).instances k' =
      if k' = q.service then q.applyTo (b.instances k') else b.instances k' := fun _ => rfl
  constructor
  · intro k' hr
    rw [hrecord] at hr
    rw [hplace]
    split at hr
    · next hk => rw [if_pos hk, hk, habsent hr]
    · next hk => rw [if_neg hk, h.absent k' hr]
  · intro k' ephemeral hr
    rw [hrecord] at hr
    rw [hplace]
    split at hr
    · next hk =>
      rw [if_pos hk, hk]
      exact hknown ephemeral hr
    · next hk =>
      rw [if_neg hk]
      exact h.known k' ephemeral hr

/-- **A request to register succeeds**: what was there before is replaced. -/
theorem Agrees.register (h : Agrees b) (hslash : '/' ∉ e.host.toList) (hk : e.key kind = .ok k)
    (data : Payload) (ephemeral : Bool) :
    Agrees ((b.serve (.register k (instanceOf e data ephemeral))).note
      (.register k (instanceOf e data ephemeral))) := by
  have hplace : Directory.place { instanceOf e data ephemeral with service := k }
      (b.instances k) = [{ instanceOf e data ephemeral with service := k }] := by
    cases hr : b.record k with
    | none => rw [h.absent k hr, Directory.place]
    | some old =>
      obtain ⟨i, hi, _, hat⟩ := h.isAt hr
      rw [hi, Directory.place]
      exact if_pos (hat e hslash hk)
  have hnoted : (Request.register k (instanceOf e data ephemeral)).noted ≠ none :=
    Option.some_ne_none _
  refine h.served rfl (fun hnone => absurd hnone hnoted) fun ephemeral' hkind => ?_
  exact ⟨e, _, hslash, hk, hplace, (instanceOf e data ephemeral).isAt_self,
    Option.some.inj hkind⟩

theorem Agrees.left (h : Agrees b) (hslash : '/' ∉ e.host.toList) (hk : e.key kind = .ok k) :
    (Request.deregister k e.host e.port ((b.record k).getD true)).applyTo (b.instances k) = [] := by
  show List.filter _ (b.instances k) = []
  cases hr : b.record k with
  | none => rw [h.absent k hr, List.filter_nil]
  | some ephemeral =>
    obtain ⟨i, hi, hkind, hat⟩ := h.isAt hr
    simp [hi, hat e hslash hk, hkind]

/-- **A request to unregister succeeds**: nothing is left. -/
theorem Agrees.unregister (h : Agrees b) (hslash : '/' ∉ e.host.toList)
    (hk : e.key kind = .ok k) :
    Agrees ((b.serve (.deregister k e.host e.port ((b.record k).getD true))).note
      (.deregister k e.host e.port ((b.record k).getD true))) :=
  h.served rfl (fun _ => h.left hslash hk) nofun

end

/-! ### Calls -/

namespace Interplay

variable {s s' : Interplay Directory} {e : Endpoint} {k : String} {x : Errand} {xs : List Errand}

/-- No call is in progress, and the registry knows what it has registered. -/
structure Rests (s : Interplay Directory) : Prop where
  calls : ∀ n, s.calls n = none
  kind : s.core.kind = Services.kind
  agrees : Agrees s.books

theorem rests_begin (id : Nat) : (begin ∅ id).Rests where
  calls _ := rfl
  kind := rfl
  agrees := ⟨fun _ _ => rfl, nofun⟩

theorem Rests.books (h : s.Rests) {ms : List (Move Directory Unit)}
    (hs : s.run Directory.provider ms = some s') (hcalls : s'.calls = s.calls)
    (hbooks : Agrees s'.books) : s'.Rests :=
  ⟨fun n => (congrFun hcalls n).trans (h.calls n), (kind_run hs).trans h.kind, hbooks⟩

theorem Rests.exists_keyless (h : s.Rests) {f : Endpoint.Fault}
    (hk : x.endpoint.key Services.kind = .error f) : ∃ s',
    s.run Directory.provider [.start 0 x.action] = some s' ∧ s'.Rests := by
  obtain ⟨operation, name, hstart⟩ : ∃ operation name,
      s.registry.start x.action = s.registry.fail operation name f.toFailure := by
    have hkind : x.endpoint.key s.registry.core.kind = .error f := h.kind ▸ hk
    unfold Errand.action
    cases x.offer with
    | none =>
      refine ⟨"unregister", x.endpoint.display, ?_⟩
      unfold start
      dsimp only
      rw [hkind]
    | some offer =>
      refine ⟨"register", x.endpoint.display, ?_⟩
      unfold start
      dsimp only
      rw [hkind]
  have hrun : s.run Directory.provider [.start 0 x.action] =
      some (s.take 0 (s.registry.fail operation name f.toFailure)) := by
    show (s.step Directory.provider (.start 0 x.action)).bind some = _
    dsimp only [step]
    rw [h.calls 0, hstart]
    rfl
  refine ⟨_, hrun, h.books hrun ?_ ?_⟩
  · show Function.update s.calls 0 none = s.calls
    rw [← h.calls 0, Function.update_eq_self]
  · rw [books_take (aside_fail s.registry ..) rfl (orders_of_free (h.calls 0))]
    exact h.agrees

/-- **What a call keeps**, whether or not it gets as far as a request. -/
theorem Rests.exists_errand (h : s.Rests) (hslash : '/' ∉ x.endpoint.host.toList) : ∃ s',
    s.run Directory.provider (x.moves Services.kind) = some s' ∧ s'.Rests := by
  unfold Errand.moves
  cases hk : x.endpoint.key Services.kind with
  | error f => exact h.exists_keyless hk
  | ok k =>
    dsimp only
    have hkind : x.endpoint.key s.core.kind = .ok k := h.kind ▸ hk
    unfold Errand.action
    cases x.offer with
    | none =>
      obtain ⟨s', hs', hbooks, hcalls⟩ :=
        exists_alone (h.calls 0) (start_unregister hkind) rfl x.failure
      refine ⟨s', hs', h.books hs' hcalls ?_⟩
      rw [hbooks]
      split
      · exact h.agrees.unregister hslash hk
      · exact h.agrees
    | some offer =>
      obtain ⟨s', hs', hbooks, hcalls⟩ := exists_alone (h.calls 0)
        (start_register hkind offer.1 offer.2) rfl x.failure
      refine ⟨s', hs', h.books hs' hcalls ?_⟩
      rw [hbooks]
      split
      · exact h.agrees.register hslash hk offer.1 offer.2
      · exact h.agrees

theorem Rests.exists_errands (h : s.Rests) (hxs : ∀ x ∈ xs, '/' ∉ x.endpoint.host.toList) :
    ∃ s', s.run Directory.provider (xs.flatMap (Errand.moves Services.kind)) = some s' ∧
      s'.Rests := by
  induction xs generalizing s with
  | nil => exact ⟨s, rfl, h⟩
  | cons x xs ih =>
    obtain ⟨t, ht, hrests⟩ := h.exists_errand (hxs x List.mem_cons_self)
    obtain ⟨s', hs', hrests'⟩ := ih hrests fun y hy => hxs y (List.mem_cons_of_mem _ hy)
    refine ⟨s', ?_, hrests'⟩
    rw [List.flatMap_cons, run_append, ht]
    exact hs'

theorem Rests.exists_unregistered (h : s.Rests) (hslash : '/' ∉ e.host.toList)
    (hk : e.key Services.kind = .ok k) : ∃ s',
    s.run Directory.provider (Errand.moves Services.kind ⟨e, none, none⟩) = some s' ∧
      s'.client.instances k = [] := by
  have hkind : e.key s.core.kind = .ok k := h.kind ▸ hk
  obtain ⟨s', hs', hbooks, _⟩ := exists_alone (h.calls 0) (start_unregister hkind) rfl none
  refine ⟨s', ?_, ?_⟩
  · unfold Errand.moves
    rw [hk]
    exact hs'
  · show s'.books.instances k = []
    rw [hbooks]
    exact (if_pos rfl).trans (h.agrees.left hslash hk)

/-- **One instance for each key that is registered.**  After any calls that register and
unregister, one at a time, whichever of their requests fail: the registry remembers a kind for a
key if and only if there is an instance at the service of the key, and then there is no other one,
it is of this kind, and it is at the address of each endpoint with the key.  So a call that
unregisters leaves no instance if its request succeeds. -/
theorem one_instance_of_errands {id : Nat} (hxs : ∀ x ∈ xs, '/' ∉ x.endpoint.host.toList) :
    ∃ s, (begin (∅ : Directory) id).run Directory.provider
        (xs.flatMap (Errand.moves Services.kind)) = some s ∧ (∀ n, s.calls n = none) ∧
      (∀ k, (s.registry.registered.get? k).isSome = true ↔ s.client.instances k ≠ []) ∧
      (∀ k ephemeral, s.registry.registered.get? k = some ephemeral →
        ∃ i, s.client.instances k = [i] ∧ i.ephemeral = ephemeral ∧ ∀ e : Endpoint,
          '/' ∉ e.host.toList → e.key Services.kind = .ok k → i.isAt e.host e.port = true) ∧
      ∀ (e : Endpoint) (k : String), '/' ∉ e.host.toList → e.key Services.kind = .ok k → ∃ s',
        s.run Directory.provider (Errand.moves Services.kind ⟨e, none, none⟩) = some s' ∧
          s'.client.instances k = [] := by
  obtain ⟨s, hs, h⟩ := (rests_begin id).exists_errands hxs
  refine ⟨s, hs, h.calls, fun k => ⟨fun hr => ?_, fun hne => ?_⟩,
    fun k ephemeral hr => h.agrees.isAt hr, fun e k hslash hk => h.exists_unregistered hslash hk⟩
  · obtain ⟨ephemeral, hr⟩ := Option.isSome_iff_exists.1 hr
    obtain ⟨i, hi, _⟩ := h.agrees.isAt hr
    exact fun hnil => List.cons_ne_nil i [] (hi.symm.trans hnil)
  · exact Option.isSome_iff_ne_none.2 fun hr => hne (h.agrees.absent k hr)

/-- An instance takes the place of one of the other kind.  Then requests fail, one that was to
replace it again and one that was to remove it. -/
def flipped : List Errand :=
  [⟨shop, some (∅, true), none⟩, ⟨shop, some (∅, false), none⟩,
    ⟨shop, some (∅, true), some (.backend "down")⟩, ⟨shop, none, some (.backend "down")⟩]

theorem one_instance_of_flipped : ∃ s s',
    (begin (∅ : Directory) 7).run Directory.provider
        (flipped.flatMap (Errand.moves Services.kind)) = some s ∧
      (∃ i, s.client.instances "nacos://h:1/a" = [i] ∧ i.ephemeral = false) ∧
      s.run Directory.provider (Errand.moves Services.kind ⟨shop, none, none⟩) = some s' ∧
        s'.client.instances "nacos://h:1/a" = [] := by
  have hxs : ∀ x ∈ flipped, '/' ∉ x.endpoint.host.toList := by decide
  obtain ⟨s, hs, _, _, hknown, hleft⟩ := @one_instance_of_errands _ 7 hxs
  have hr : s.registry.registered.get? "nacos://h:1/a" = some false := by
    obtain rfl := Option.some.inj (hs.symm.trans rfl)
    decide
  obtain ⟨i, hi, hkind, _⟩ := hknown _ false hr
  obtain ⟨s', hs', hnil⟩ := hleft shop "nacos://h:1/a" (by decide) rfl
  exact ⟨s, s', hs, ⟨i, hi, hkind⟩, hs', hnil⟩

end Interplay

end Discovery.Registry.Services
