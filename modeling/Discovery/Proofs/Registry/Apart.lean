import Discovery.Proofs.Registry.CatchUp
import Discovery.Proofs.Registry.Serial

/-!
# Keys do not interfere

Several keys may have their node at one path, and then their listeners stand in one list of watches.
Still each key goes by itself: what becomes of its consumers, its listener and its watch, and what
is heard under it, would be the same if nobody had ever subscribed under any other key.

* `Alike`: two interplays are alike as far as a key goes.
* `Alike.undergo`, `Alike.go`: they stay alike when both trees are used in the same way.
* `Visited.alike`, `Visited.alike_of_ne`: they stay alike when the key is visited in both, or
  another key in one of them.
* `Alike.serial`: they stay alike along a serial run, if in one of them the calls on other keys are
  left out.
* `apart_of_serial`: a serial run with and without the calls on other keys.
-/

namespace Discovery.Registry

open Discovery.Tree (Reply Request)
open Discovery.Tree.Server (Act)

/-- Whether a move is anything but a call to attach or detach a consumer under another key. -/
def Move.concerns (k : String) : Move → Bool
  | .start _ (.subscribe e _) | .start _ (.unsubscribe e _) =>
    match e.key Nodes.kind with
    | .ok j => j == k
    | .error _ => true
  | _ => true

namespace Nodes

/-! ### What a call does next -/

theorem call_buildUp (r r' : Nodes) (p : Publication) (missing : List String) :
    (r.buildUp p missing).call = (r'.buildUp p missing).call := by
  cases missing <;> rfl

theorem call_climbUp (r r' : Nodes) (p : Publication) (above missing : List String) :
    (r.climbUp p above missing).call = (r'.climbUp p above missing).call := by
  cases above with
  | nil => exact call_buildUp ..
  | cons here above => rfl

/-- **What a call that is not on a key does next depends on the answer only.** -/
theorem call_answered (r r' : Nodes) {c : Call} (hc : c.visit? = none) (reply : Reply) :
    (r.answered c reply).call = (r'.answered c reply).call := by
  cases c with
  | checkLeaf p =>
    cases reply with
    | failed e => rfl
    | present there => cases there <;> first | exact call_climbUp .. | rfl
    | _ => exact call_climbUp ..
  | clearLeaf p =>
    cases reply with
    | failed e => cases e <;> first | exact call_climbUp .. | rfl
    | _ => exact call_climbUp ..
  | climb p here above missing =>
    cases reply with
    | failed e => rfl
    | present there => cases there <;> first | exact call_climbUp .. | exact call_buildUp ..
    | _ => exact call_climbUp ..
  | build p here rest =>
    cases reply with
    | failed e => cases e <;> first | exact call_buildUp .. | rfl
    | _ => exact call_buildUp ..
  | putLeaf p => cases reply <;> rfl
  | findLeaf name path =>
    cases reply with
    | present there => cases there <;> rfl
    | _ => rfl
  | removeLeaf name path =>
    cases reply with
    | failed e => cases e <;> rfl
    | _ => rfl
  | _ => exact nomatch hc

theorem call_start {r r' : Nodes} (hkind : r'.core.kind = r.core.kind) {a : Action}
    (ha : a.onKey = true → ∀ x, r.address a.endpoint ≠ .ok x) :
    (r.start a).call = (r'.start a).call := by
  cases a with
  | register e | unregister e =>
    unfold start
    dsimp only
    rw [hkind]
    cases e.path <;> rfl
  | subscribe e | unsubscribe e =>
    have haddress : r'.address e = r.address e := by
      unfold address
      rw [hkind]
    unfold start
    dsimp only
    rw [haddress]
    cases h : r.address e with
    | ok x => exact absurd h (ha rfl x)
    | error f => rfl

end Nodes

namespace Interplay

variable {place : String → String} {s t u w : Interplay} {n : Nat} {a : Action} {m : Move}
  {ms : List Move} {c : Nodes.Call} {j k p : String} {act : Act} {cs : List Consumer}
  {new : List Notice}

/-! ### Alike as far as a key goes -/

/-- **Two interplays are alike as far as a key goes**: the tree is the same but for its watches, and
so are the calls in progress, the consumers of the key and what was heard under it. -/
structure Alike (place : String → String) (k : String) (s u : Interplay) : Prop where
  here : s.Unvisited place
  there : u.Unvisited place
  server : u.server.bare = s.server.bare
  id : u.core.id = s.core.id
  session : u.registry.session = s.registry.session
  calls : u.calls = s.calls
  consumers : u.consumers k = s.consumers k
  heard : u.heardUnder k = s.heardUnder k

theorem Alike.refl (h : s.Unvisited place) (k : String) : s.Alike place k s :=
  ⟨h, h, rfl, rfl, rfl, rfl, rfl, rfl⟩

theorem Alike.kind (h : s.Alike place k u) : u.core.kind = s.core.kind :=
  h.there.orderly.kind.trans h.here.orderly.kind.symm

theorem Alike.address (h : s.Alike place k u) (e : Endpoint) :
    u.registry.address e = s.registry.address e := by
  have hkind : u.registry.core.kind = s.registry.core.kind := h.kind
  unfold Nodes.address
  rw [hkind]

theorem Told.same (h : s.Told new t) : t.server = s.server ∧ t.core.id = s.core.id ∧
    t.registry.session = s.registry.session ∧ t.calls = s.calls ∧
    ∀ k, t.consumers k = s.consumers k := by
  obtain ⟨m, rfl⟩ := h
  exact ⟨rfl, rfl, rfl, rfl, fun _ => rfl⟩

/-- **Interplays that are alike stay so when both trees are used in the same way.** -/
theorem Alike.undergo (h : s.Alike place k u) (hs : (s.undergo act).Unvisited place)
    (hu : (u.undergo act).Unvisited place) :
    (s.undergo act).Alike place k (u.undergo act) := by
  obtain ⟨hserver, hid, hsession, hcalls, hcons⟩ := (s.told_undergo act).same
  obtain ⟨hserver', hid', hsession', hcalls', hcons'⟩ := (u.told_undergo act).same
  refine ⟨hs, hu, ?_, hid'.trans (h.id.trans hid.symm),
    hsession'.trans (h.session.trans hsession.symm), hcalls'.trans (h.calls.trans hcalls.symm),
    (hcons' k).trans (h.consumers.trans (hcons k).symm), ?_⟩
  · rw [hserver, hserver']
    exact Tree.Server.act_congr h.server act
  · by_cases hdata : ∃ p bytes, s.server.Does act (.changed p bytes)
    · obtain ⟨p, bytes, hact⟩ := hdata
      have hword : u.word k bytes = s.word k bytes := by
        unfold word
        rw [h.consumers]
      rw [h.here.heardUnder_undergo hact,
        h.there.heardUnder_undergo (hact.congr_changed h.server), h.heard, hword]
    · have hnone : ∀ p bytes, ¬ s.server.Does act (.changed p bytes) :=
        fun p bytes hact => hdata ⟨p, bytes, hact⟩
      have hnone' : ∀ p bytes, ¬ u.server.Does act (.changed p bytes) :=
        fun p bytes hact => hnone p bytes (hact.congr_changed h.server.symm)
      unfold heardUnder
      rw [heard_undergo_of_not_changed hnone, heard_undergo_of_not_changed hnone']
      exact h.heard

/-- A step of a call that is not on a key leaves one of two interplays as it was for the other, but
for the call. -/
theorem Alike.take (h : s.Alike place k u) {st st' : Step Nodes Nodes.Call}
    (hst : s.registry.Plain st) (hst' : u.registry.Plain st') (hcall : st.call = st'.call)
    (hs : (s.take n st).Unvisited place) (hu : (u.take n st').Unvisited place) :
    (s.take n st).Alike place k (u.take n st') := by
  obtain ⟨⟨m, hm⟩, _⟩ := hst
  obtain ⟨⟨m', hm'⟩, _⟩ := hst'
  have hregistry : (s.take n st).registry = s.registry.withMeter m := hm
  have hregistry' : (u.take n st').registry = u.registry.withMeter m' := hm'
  refine ⟨hs, hu, h.server, ?_, ?_, ?_, ?_, h.heard⟩
  · rw [core, core, hregistry, hregistry']
    exact h.id
  · rw [hregistry, hregistry']
    exact h.session
  · show Function.update u.calls n st'.call = Function.update s.calls n st.call
    rw [h.calls, hcall]
  · rw [Interplay.consumers, Interplay.consumers, core, core, hregistry, hregistry']
    exact h.consumers

theorem Alike.go (h : s.Alike place k u) (hc : s.calls n = some c) :
    (s.go n c).Alike place k (u.go n c) := by
  have hv := h.here.plain n c hc
  have hcu : u.calls n = some c := by
    rw [h.calls]
    exact hc
  obtain ⟨q, hneed, hq⟩ := Nodes.need_of_plain hv
  have hnot : ∀ (id : Nat) (l : Listener), q.listener? = some l → l.isOf id = false :=
    fun _ l hl => nomatch hq.symm.trans hl
  have hs : (s.ask s.registry.session q).1.Unvisited place :=
    h.here.beside (beside_ask (hnot _))
  have hu : (u.ask u.registry.session q).1.Unvisited place :=
    h.there.beside (beside_ask (hnot _))
  have hreply : (u.ask u.registry.session q).2 = (s.ask s.registry.session q).2 := by
    rw [h.session]
    exact Tree.Server.reply_congr h.server s.registry.session q
  have hgo := h.here.go hc
  have hgo' := h.there.go hcu
  rw [go_ask hneed] at hgo hgo' ⊢
  rw [go_ask hneed]
  rw [hreply] at hgo' ⊢
  have hasked : (s.ask s.registry.session q).1.Alike place k (u.ask u.registry.session q).1 := by
    have hs' : (s.undergo (.request s.registry.session q)).Unvisited place := hs
    rw [h.session] at hu ⊢
    exact h.undergo hs' hu
  exact hasked.take (Nodes.plain_answered _ hv _) (Nodes.plain_answered _ hv _)
    (Nodes.call_answered _ _ hv _) hgo hgo'

theorem Alike.goes (h : s.Alike place k u) {i : Nat}
    (hs : s.run (List.replicate i (.go n)) = some t) :
    ∃ w, u.run (List.replicate i (.go n)) = some w ∧ t.Alike place k w := by
  induction i generalizing s u with
  | zero =>
    obtain rfl := Option.some.inj hs
    exact ⟨u, rfl, h⟩
  | succ i ih =>
    rw [List.replicate_succ, run_cons] at hs
    obtain ⟨s', hstep, hs⟩ := Option.bind_eq_some_iff.1 hs
    obtain ⟨c, hc, rfl⟩ := Option.map_eq_some_iff.1 hstep
    obtain ⟨w, hrun, hw⟩ := ih (h.go hc) hs
    refine ⟨w, ?_, hw⟩
    rw [List.replicate_succ, run_cons, step_go (by rw [h.calls]; exact hc)]
    exact hrun

/-! ### Whole calls -/

theorem Alone.free (h : s.Alone n a t) : s.calls n = none := by
  obtain ⟨i, hrun, _⟩ := h
  rw [run_cons] at hrun
  obtain ⟨s', hstep, _⟩ := Option.bind_eq_some_iff.1 hrun
  dsimp only [step] at hstep
  cases hc : s.calls n with
  | none => rfl
  | some c =>
    rw [hc] at hstep
    exact nomatch hstep

theorem Alone.rest (h : s.Alone n a t) : ∃ i,
    (s.take n (s.registry.start a)).run (List.replicate i (.go n)) = some t ∧
      t.calls n = none := by
  have hfree := h.free
  obtain ⟨i, hrun, hover⟩ := h
  rw [run_cons, step_start hfree] at hrun
  exact ⟨i, hrun, hover⟩

/-- **A whole call that is not on a key runs in both interplays, and they stay alike.** -/
theorem Alike.alone (h : s.Alike place k u) (halone : s.Alone n a t)
    (ha : a.onKey = true → ∀ x, s.registry.address a.endpoint ≠ .ok x) :
    ∃ w, u.Alone n a w ∧ t.Alike place k w := by
  have hfree := halone.free
  have hfree' : u.calls n = none := by
    rw [h.calls]
    exact hfree
  have ha' : a.onKey = true → ∀ x, u.registry.address a.endpoint ≠ .ok x := by
    rw [h.address]
    exact ha
  have hbegun := h.take (Nodes.plain_start s.registry ha) (Nodes.plain_start u.registry ha')
    (Nodes.call_start h.kind ha) (h.here.start_plain hfree ha) (h.there.start_plain hfree' ha')
  obtain ⟨i, hrun, hover⟩ := halone.rest
  obtain ⟨w, hrun', hw⟩ := hbegun.goes hrun
  refine ⟨w, ⟨i, ?_, by rw [hw.calls]; exact hover⟩, hw⟩
  rw [run_cons, step_start hfree']
  exact hrun'

/-- A call to attach or detach a consumer that finds no key and no path changes nothing. -/
theorem Alike.alone_of_failed (h : s.Alike place k u) (halone : s.Alone n a t)
    (hon : a.onKey = true) (ha : ∀ x, s.registry.address a.endpoint ≠ .ok x) :
    t.Alike place k u := by
  have hfree := halone.free
  have hcall : (s.registry.start a).call = none := by
    cases a with
    | register | unregister => exact nomatch hon
    | subscribe e | unsubscribe e =>
      unfold Nodes.start
      dsimp only
      cases haddress : s.registry.address e with
      | ok x => exact absurd haddress (ha x)
      | error f => rfl
  obtain ⟨i, hrun, _⟩ := halone.rest
  have hover : (s.take n (s.registry.start a)).calls n = none :=
    (Function.update_self ..).trans hcall
  obtain rfl := run_go_of_over hover hrun
  obtain ⟨⟨m, hm⟩, _⟩ := Nodes.plain_start s.registry fun _ => ha
  have hregistry : (s.take n (s.registry.start a)).registry = s.registry.withMeter m := hm
  have hcalls : (s.take n (s.registry.start a)).calls = s.calls := by
    show Function.update s.calls n (s.registry.start a).call = s.calls
    rw [hcall, ← hfree, Function.update_eq_self]
  refine ⟨h.here.start_plain hfree fun _ => ha, h.there, h.server, ?_, ?_,
    h.calls.trans hcalls.symm, ?_, h.heard⟩
  · rw [core, core, hregistry]
    exact h.id
  · rw [hregistry]
    exact h.session
  · rw [Interplay.consumers, Interplay.consumers, core, core, hregistry]
    exact h.consumers

/-- **The key is visited in both.** -/
theorem Visited.alike (hs : s.Visited place k cs new t) (hu : u.Visited place k cs new w)
    (h : s.Alike place k u) : t.Alike place k w := by
  refine ⟨hs.unvisited, hu.unvisited, hu.server.trans (h.server.trans hs.server.symm),
    hu.id.trans (h.id.trans hs.id.symm), hu.session.trans (h.session.trans hs.session.symm),
    hu.calls.trans (h.calls.trans hs.calls.symm), ?_, ?_⟩
  · rw [hs.consumers, hu.consumers, if_pos rfl, if_pos rfl]
  · have hheard := h.heard
    unfold heardUnder at hheard ⊢
    rw [hs.heard, hu.heard, List.filter_append, List.filter_append, hheard]

/-- **Another key is visited in one of them.** -/
theorem Visited.alike_of_ne (hs : s.Visited place j cs new t) (hj : j ≠ k)
    (hnew : ∀ x ∈ new, x.key = j) (h : s.Alike place k u) : t.Alike place k u := by
  refine ⟨hs.unvisited, h.there, h.server.trans hs.server.symm, h.id.trans hs.id.symm,
    h.session.trans hs.session.symm, h.calls.trans hs.calls.symm, ?_, ?_⟩
  · rw [hs.consumers, if_neg (Ne.symm hj)]
    exact h.consumers
  · have hnil : new.filter (·.key == k) = [] :=
      List.filter_eq_nil_iff.2 fun x hx he => hj ((hnew x hx).symm.trans (eq_of_beq he))
    have hheard := h.heard
    unfold heardUnder at hheard ⊢
    rw [hs.heard, List.filter_append, hnil, List.append_nil]
    exact hheard

theorem key_of_mem_wordOf {x : Notice} (hx : x ∈ s.wordOf k p a) : x.key = k := by
  cases a with
  | subscribe e c =>
    obtain ⟨data, _, rfl⟩ := List.mem_map.1 hx
    rfl
  | _ => exact nomatch hx

theorem wordOf_congr (h : u.server.bare = s.server.bare) (k p : String) (a : Action) :
    u.wordOf k p a = s.wordOf k p a := by
  cases a with
  | subscribe e c =>
    unfold wordOf firstWord
    rw [found?_congr h]
  | _ => rfl

/-! ### Serial runs -/

theorem concerns_start (hon : a.onKey = true) (hk : a.endpoint.key Nodes.kind = .ok j) :
    (Move.start n a).concerns k = (j == k) := by
  cases a with
  | subscribe e | unsubscribe e =>
    have hk : e.key Nodes.kind = .ok j := hk
    unfold Move.concerns
    dsimp only
    rw [hk]
  | register | unregister => exact nomatch hon

theorem concerns_of_plain (ha : ¬ a.onKey = true) : (Move.start n a).concerns k = true := by
  cases a with
  | subscribe | unsubscribe => exact absurd rfl ha
  | register | unregister => rfl

/-- **A whole call** that concerns the key runs in both interplays, any other one in one of them,
and they stay alike. -/
theorem Alike.call (h : s.Alike place k u) (ha : (Move.start n a).Placed place)
    (halone : s.Alone n a t) :
    ((Move.start n a).concerns k = true ∧ ∃ w, u.Alone n a w ∧ t.Alike place k w) ∨
      ((Move.start n a).concerns k = false ∧ t.Alike place k u) := by
  by_cases hkey : a.onKey = true ∧ ∃ x, s.registry.address a.endpoint = .ok x
  · -- the call is on a key
    obtain ⟨hon, ⟨j, p⟩, haddress⟩ := hkey
    obtain ⟨hj, _⟩ := h.here.orderly.grounded.address_spec ha haddress
    obtain ⟨t', halone', hvisit⟩ := h.here.exists_visit halone.free hon ha haddress
    obtain rfl := halone.unique halone'
    rw [concerns_start hon hj]
    by_cases hjk : j = k
    · subst hjk
      obtain ⟨w, halone', hvisit'⟩ := h.there.exists_visit (by rw [h.calls]; exact halone.free) hon
        ha ((h.address a.endpoint).trans haddress)
      rw [h.consumers, wordOf_congr h.server] at hvisit'
      exact .inl ⟨beq_self_eq_true j, w, halone', hvisit.alike hvisit' h⟩
    · exact .inr ⟨beq_eq_false_iff_ne.2 hjk,
        hvisit.alike_of_ne hjk (fun x hx => key_of_mem_wordOf hx) h⟩
  · have hplain : a.onKey = true → ∀ x, s.registry.address a.endpoint ≠ .ok x :=
      fun hon x hx => hkey ⟨hon, x, hx⟩
    cases hcon : (Move.start n a).concerns k with
    | true => exact .inl ⟨rfl, h.alone halone hplain⟩
    | false =>
      have hon : a.onKey = true := by
        by_contra hon
        exact nomatch (concerns_of_plain hon).symm.trans hcon
      exact .inr ⟨rfl, h.alone_of_failed halone hon (hplain hon)⟩

/-- **What others do** happens in both interplays, and they stay alike. -/
theorem Alike.use (h : s.Alike place k u) (hothers : m.act?.isSome) (hs : s.step m = some t) :
    m.concerns k = true ∧ ∃ w, u.step m = some w ∧ t.Alike place k w := by
  obtain ⟨act, hact⟩ := Option.isSome_iff_exists.1 hothers
  obtain rfl := undergo_of_step hact hs
  have hs' := step_of_step hact h.id h.session hs
  refine ⟨?_, _, hs', h.undergo (h.here.beside (h.here.orderly.beside_of_step hact hs))
    (h.there.beside (h.there.orderly.beside_of_step hact hs'))⟩
  cases m with
  | start => exact nomatch hact
  | _ => rfl

/-- **Interplays that are alike as far as a key goes stay so** along a serial run, if in one of them
the calls on other keys are left out. -/
theorem Alike.serial (h : s.Alike place k u) (hms : ∀ m ∈ ms, m.Placed place)
    (hs : s.Serial ms t) :
    ∃ w, u.Serial (ms.filter (·.concerns k)) w ∧ t.Alike place k w := by
  induction hs generalizing u with
  | nil s => exact ⟨u, .nil u, h⟩
  | @call s t t' n a ms halone hrest ih =>
    have hms' : ∀ m ∈ ms, m.Placed place := fun m hm => hms m (List.mem_cons_of_mem _ hm)
    rcases h.call (hms _ List.mem_cons_self) halone with ⟨hcon, w, halone', hw⟩ | ⟨hcon, hu⟩
    · obtain ⟨w', hserial, hw'⟩ := ih hw hms'
      refine ⟨w', ?_, hw'⟩
      rw [List.filter_cons_of_pos hcon]
      exact .call halone' hserial
    · rw [List.filter_cons_of_neg (Bool.eq_false_iff.1 hcon)]
      exact ih hu hms'
  | @use s t t' m ms hothers hstep hrest ih =>
    obtain ⟨hcon, w, hstep', hw⟩ := h.use hothers hstep
    obtain ⟨w', hserial, hw'⟩ := ih hw fun m hm => hms m (List.mem_cons_of_mem _ hm)
    refine ⟨w', ?_, hw'⟩
    rw [List.filter_cons_of_pos hcon]
    exact .use hothers hstep' hserial

/-! ### Consumers of one key -/

def payloads (s : Interplay) (x : Consumer) : List Payload :=
  (s.heard.filter (·.consumer == x)).map (·.data)

/-- A consumer has heard under no key but one. -/
def HeardOnly (s : Interplay) (x : Consumer) (k : String) : Prop :=
  ∀ y ∈ s.heard, y.consumer = x → y.key = k

theorem HeardOnly.of_append {x : Consumer} (h : s.HeardOnly x k) (hheard : t.heard = s.heard ++ new)
    (hnew : ∀ y ∈ new, y.consumer = x → y.key = k) : t.HeardOnly x k := by
  intro y hy
  rw [hheard] at hy
  exact (List.mem_append.1 hy).elim (h y) (hnew y)

theorem mem_consumers_of_told {k : Core} {d : Tree.Delivery} {y : Notice} (hy : y ∈ k.told d) :
    y.consumer ∈ k.roster.consumers y.key := by
  obtain ⟨l, e⟩ := d
  cases e with
  | changed p bytes => exact (mem_told_iff.1 hy).2.2
  | deleted p =>
    rw [told_deleted] at hy
    exact nomatch hy

/-- **A consumer that is devoted to a key hears under no other.** -/
theorem Devoted.heardOnly_effect {x : Consumer} (h : s.Devoted x k) (hs : s.HeardOnly x k)
    (he : Effect place s m t) : t.HeardOnly x k := by
  cases he with
  | beside hb =>
    obtain ⟨ds, _, hheard⟩ := hb.heard
    refine hs.of_append hheard fun y hy hyx => ?_
    obtain ⟨d, _, hd⟩ := List.mem_flatMap.1 hy
    exact h.attached y.key (hyx ▸ mem_consumers_of_told hd)
  | @hand n v data m hc =>
    have hheard : ((s.hearing (s.handed v data)).leave n v m).heard =
        s.heard ++ s.handed v data := rfl
    refine hs.of_append hheard fun y hy hyx => ?_
    unfold handed at hy
    split at hy
    · obtain rfl := List.mem_singleton.1 hy
      exact h.coming n _ v hc rfl rfl hyx
    · exact nomatch hy
  | _ => exact hs

theorem Serial.heardOnly {x : Consumer} (hs : s.Serial ms t) (ho : s.Orderly place)
    (hms : ∀ m ∈ ms, m.Placed place)
    (hone : ∀ n e k', .start n (.subscribe e x) ∈ ms → e.key Nodes.kind = .ok k' → k' = k)
    (hd : s.Devoted x k) (hh : s.HeardOnly x k) : t.HeardOnly x k := by
  obtain ⟨ms', hrun, hms'⟩ := hs.exists_run
  have hstep : ∀ {u w : Interplay} {m : Move},
      u.Orderly place ∧ u.Devoted x k ∧ u.HeardOnly x k → True →
      (m.Placed place ∧ ∀ n e k', m = .start n (.subscribe e x) → e.key Nodes.kind = .ok k' →
        k' = k) → u.step m = some w →
      w.Orderly place ∧ w.Devoted x k ∧ w.HeardOnly x k := by
    rintro u w m ⟨hu, hd, hh⟩ _ ⟨hm, hone⟩ hst
    have he := hu.step_effect hm hst
    exact ⟨hu.effect he, hd.effect he hone, hd.heardOnly_effect hh he⟩
  refine ((throughout_true ms' s).keeps hstep ⟨ho, hd, hh⟩ (fun m hm => ?_) hrun).2.2
  rcases hms' m hm with hm | ⟨n, rfl⟩
  · refine ⟨hms m hm, ?_⟩
    rintro n e k' rfl
    exact hone n e k' hm
  · exact ⟨trivial, nofun⟩

theorem HeardOnly.payloads_eq {x : Consumer} (h : s.HeardOnly x k) :
    s.payloads x = ((s.heardUnder k).filter (·.consumer == x)).map (·.data) := by
  unfold payloads heardUnder
  rw [List.filter_filter]
  congr 1
  refine List.filter_congr fun y hy => ?_
  by_cases hyx : y.consumer = x
  · rw [h y hy hyx, beq_self_eq_true, Bool.and_true]
  · rw [beq_eq_false_iff_ne.2 hyx, Bool.false_and]

/-- **Keys do not interfere.**  Take any serial run of a new registry, in which no request fails,
and leave out all calls to attach or detach consumers under other keys than `k`.  What is left is a
serial run as well, and it comes to the same for `k`: the consumers, whether there is a listener,
the number of watches, and for each consumer that subscribes under `k` only, what it was told. -/
theorem apart_of_serial {conduct : Conduct} {v : Tree.Server} {id : Nat}
    {session : Tree.SessionId} (hopen : v.isClosed session = false)
    (hnew : ∀ p, ∀ w ∈ v.tree.watchesAt p, w.listener.isOf id = false)
    (hms : ∀ m ∈ ms, m.Placed place) (hrun : (begin conduct v id session).Serial ms s)
    (k : String) :
    ∃ t, (∀ u, (begin conduct v id session).Serial (ms.filter (·.concerns k)) u ↔ u = t) ∧
      t.consumers k = s.consumers k ∧ t.core.hasListener k = s.core.hasListener k ∧
      (t.watchesOf k).length = (s.watchesOf k).length ∧
      ∀ x, (∀ n e k', .start n (.subscribe e x) ∈ ms → e.key Nodes.kind = .ok k' → k' = k) →
        t.payloads x = s.payloads x := by
  have h₀ : (begin conduct v id session).Unvisited place := unvisited_begin hopen hnew
  obtain ⟨t, hserial, h⟩ := (Alike.refl h₀ k).serial hms hrun
  refine ⟨t, fun u => ⟨fun hu => hserial.unique hu, fun hu => hu ▸ hserial⟩, h.consumers, ?_, ?_,
    fun x hone => ?_⟩
  · rw [Bool.eq_iff_iff, h.here.orderly.listed, h.there.orderly.listed, h.consumers]
  · rw [h.here.length_watchesOf, h.there.length_watchesOf, h.consumers]
  · have hdevoted : (begin conduct v id session).Devoted x k :=
      ⟨fun _ hx => absurd hx List.not_mem_nil, nofun⟩
    have hs : s.HeardOnly x k := hrun.heardOnly h₀.orderly hms hone hdevoted nofun
    have ht : t.HeardOnly x k := hserial.heardOnly h₀.orderly
      (fun m hm => hms m (List.mem_filter.1 hm).1)
      (fun n e k' hm => hone n e k' (List.mem_filter.1 hm).1) hdevoted nofun
    rw [hs.payloads_eq, ht.payloads_eq, h.heard]

/-- Two consumers subscribe under keys whose nodes are at one path, and one of them goes. -/
def sharedPath : List Move :=
  [.connect, .start 0 (.subscribe branch "d"), .start 0 (.subscribe shop "c"),
    .request 2 (.create "/a" [] .ephemeral), .start 0 (.unsubscribe branch "d"), .close 2,
    .start 0 (.register shop news true)]

theorem apart_of_sharedPath : ∃ s t, fresh.Serial sharedPath s ∧
    fresh.Serial (sharedPath.filter (·.concerns "zookeeper://h:1/a")) t ∧
    t.consumers "zookeeper://h:1/a" = s.consumers "zookeeper://h:1/a" ∧
    s.payloads "c" = [∅, news] ∧ t.payloads "c" = s.payloads "c" := by
  obtain ⟨s, hs, hheard⟩ : ∃ s, fresh.Serial sharedPath s ∧ s.payloads "c" = [∅, news] := by
    refine ⟨_, .use rfl rfl (.call ⟨3, rfl, rfl⟩ (.call ⟨3, rfl, rfl⟩ (.use rfl rfl
      (.call ⟨2, rfl, rfl⟩ (.use rfl rfl (.call ⟨2, rfl, rfl⟩ (.nil _))))))), ?_⟩
    rfl
  have hms : ∀ m ∈ sharedPath, m.Placed fun _ => "/a" := placed_of_all (by decide)
  have hone : ∀ n e k', .start n (.subscribe e "c") ∈ sharedPath → e.key Nodes.kind = .ok k' →
      k' = "zookeeper://h:1/a" := by
    intro n e k hm hk
    have he : e = shop := by
      simp [sharedPath] at hm
      exact hm.2
    subst he
    exact Except.ok.inj (hk.symm.trans (by decide))
  obtain ⟨t, ht, hcons, _, _, hpayloads⟩ := apart_of_serial rfl
    (fun p w hw => absurd hw List.not_mem_nil) hms hs "zookeeper://h:1/a"
  exact ⟨s, t, hs, (ht t).2 rfl, hcons, hheard, hpayloads "c" hone⟩

end Interplay

end Discovery.Registry
