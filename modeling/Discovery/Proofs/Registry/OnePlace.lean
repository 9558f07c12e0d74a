import Discovery.Proofs.Endpoint.Key
import Discovery.Proofs.Registry.OneWatch

/-!
# One place for each key

A registry over the tree keeps its listeners under keys, and puts them on paths.  An endpoint has
both, and nothing in a key marks where its host ends and where its segments end.  So a key alone
does not say which node is meant: of two endpoints with the same key, one may have in a segment
what the other has as its parameters, and then a watch that is put up for the one is not taken down
for the other (`two_places_of_one_key`).

* `exists_place`: for endpoints that are alike there is a place for each key.
* `one_place_of_run`: then the listener of a key is put on one path only, and is taken off there.
-/

namespace Discovery.Registry.Interplay

open Discovery.Tree (Request)

variable {s : Interplay} {ms : List Move} {e : Endpoint} {k p : String}

def asked (ms : List Move) : List Endpoint :=
  ms.filterMap fun
    | .start _ a => some a.endpoint
    | _ => none

theorem mem_asked {n : Nat} {a : Action} (h : .start n a ∈ ms) : a.endpoint ∈ asked ms :=
  List.mem_filterMap.2 ⟨_, h, rfl⟩

/-- **Endpoints that are alike have a place for each key**, which for the key of one of them is its
path. -/
theorem exists_place (hk : e.key Nodes.kind = .ok k) (hp : e.path = .ok p)
    (halike : ∀ e' ∈ asked ms, e.Alike e') :
    ∃ place : String → String, place k = p ∧ ∀ m ∈ ms, m.Placed place := by
  have hplace : ∀ k', ∃ q, (k' = k → q = p) ∧ ∀ e' ∈ asked ms, e'.key Nodes.kind = .ok k' →
      ∀ p', e'.path = .ok p' → p' = q := by
    intro k'
    by_cases hkk : k' = k
    · subst hkk
      exact ⟨p, fun _ => rfl, fun e' he' hk' p' hp' =>
        (Endpoint.path_of_key (halike e' he') hk hk' hp hp').symm⟩
    by_cases hmeant : ∃ d ∈ asked ms, d.key Nodes.kind = .ok k' ∧ ∃ q, d.path = .ok q
    · obtain ⟨d, hd, hdk, q, hdq⟩ := hmeant
      refine ⟨q, fun h => absurd h hkk, fun e' he' hk' p' hp' => ?_⟩
      exact Endpoint.path_of_key ((halike e' he').symm.trans (halike d hd)) hk' hdk hp' hdq
    · exact ⟨"", fun h => absurd h hkk, fun e' he' hk' p' hp' =>
        absurd ⟨e', he', hk', p', hp'⟩ hmeant⟩
  choose place hown hother using hplace
  refine ⟨place, hown k rfl, fun m hm => ?_⟩
  cases m with
  | start n a => exact fun k' p' hk' hp' => hother k' _ (mem_asked hm) hk' p' hp'
  | _ => trivial

/-- **A listener is put up and taken down at the place of its key.** -/
theorem Orderly.place_of_need {place : String → String} (h : s.Orderly place) {n : Nat}
    {c : Nodes.Call} (hc : s.calls n = some c) {q : String} {l : Listener}
    (hneed : c.need = .ask (.watch q l) ∨ c.need = .ask (.unwatch q l))
    (hl : l.isFor s.core.id k = true) : q = place k := by
  have hkey : ∀ {v : Visit} {i : Nat}, l = s.core.listener v.key i → v.key = k := by
    rintro v i rfl
    exact beq_iff_eq.1 ((isFor_listener s.core v.key k i).symm.trans hl)
  cases c with
  | watch v l' =>
    obtain ⟨_, i, _, hi⟩ := (h.visiting n _ v hc rfl).phase
    rcases hneed with hneed | hneed <;> cases hneed
    rw [← hkey hi]
    exact (h.visiting n _ v hc rfl).path
  | unwatch v l' =>
    obtain ⟨_, i, hi⟩ := (h.visiting n _ v hc rfl).phase
    rcases hneed with hneed | hneed <;> cases hneed
    rw [← hkey hi]
    exact (h.visiting n _ v hc rfl).path
  | _ => rcases hneed with hneed | hneed <;> cases hneed

/-- **One place for each key.**  Where all calls are about endpoints that are alike, those with the
same key have the same path.  However the calls interleave, the listener of the key is put on that
path and taken off it, and there is no watch for the key elsewhere. -/
theorem one_place_of_run {conduct : Conduct} {v : Tree.Server} {id : Nat}
    {session : Tree.SessionId} (hopen : v.isClosed session = false)
    (hnew : ∀ p, ∀ w ∈ v.tree.watchesAt p, w.listener.isOf id = false)
    (hk : e.key Nodes.kind = .ok k) (hp : e.path = .ok p)
    (halike : ∀ e' ∈ asked ms, e.Alike e')
    (hrun : (begin conduct v id session).run ms = some s) :
    (∀ e' : Endpoint, e.Alike e' → e'.key Nodes.kind = .ok k →
      ∀ p', e'.path = .ok p' → p' = p) ∧
    (∀ n c q l, s.calls n = some c →
      c.need = .ask (.watch q l) ∨ c.need = .ask (.unwatch q l) →
      l.isFor id k = true → q = p) ∧
    ∀ x ∈ s.watchesOf k, x.1 = p := by
  obtain ⟨place, rfl, hms⟩ := exists_place hk hp halike
  have h₀ : (begin conduct v id session).Orderly place := orderly_begin hopen hnew
  have h := h₀.run hms hrun
  have hid : s.core.id = id := (h₀.registry_run hms hrun).1
  refine ⟨fun e' ha hk' p' hp' => (Endpoint.path_of_key ha hk hk' hp hp').symm,
    fun n c q l hc hneed hl => h.place_of_need hc hneed (hid ▸ hl), fun x hx => ?_⟩
  rw [h.watchesOf_eq] at hx
  obtain ⟨w, _, rfl⟩ := List.mem_map.1 hx
  rfl

/-- Hosts with a slash and segments with a question mark. -/
def odd (port : UInt16) : Endpoint :=
  ⟨"h/x", port, ["a?b"], ∅⟩

/-- Two endpoints are subscribed to, and one of them is given up. -/
def oddVisits : List Move :=
  [.start 0 (.subscribe (odd 1) "c"), .start 1 (.subscribe (odd 2) "c"), .go 0, .go 1, .go 0, .go 1,
    .go 0, .go 1, .start 2 (.unsubscribe (odd 2) "c"), .go 2]

theorem one_place_of_oddVisits : ∃ s, fresh.run oddVisits = some s ∧
    (∃ v l, s.calls 2 = some (.unwatch v l) ∧ l.isFor 7 "zookeeper://h/x:2/a?b" = true ∧
      v.path = "/a?b") ∧
    (s.watchesOf "zookeeper://h/x:2/a?b").length = 1 ∧
    ∀ x ∈ s.watchesOf "zookeeper://h/x:2/a?b", x.1 = "/a?b" := by
  obtain ⟨s, hs, v, l, hc, hl, hlength⟩ : ∃ s, fresh.run oddVisits = some s ∧
      ∃ v l, s.calls 2 = some (.unwatch v l) ∧ l.isFor 7 "zookeeper://h/x:2/a?b" = true ∧
        (s.watchesOf "zookeeper://h/x:2/a?b").length = 1 :=
    ⟨_, rfl, _, _, rfl, by decide, by decide⟩
  have halike : ∀ e' ∈ asked oddVisits, (odd 2).Alike e' := by
    intro e' he'
    have hodd : e' = odd 1 ∨ e' = odd 2 := by
      revert he' e'
      decide
    rcases hodd with rfl | rfl <;> exact ⟨rfl, rfl⟩
  obtain ⟨_, hneed, hwatches⟩ := one_place_of_run rfl (fun p w hw => absurd hw List.not_mem_nil)
    rfl rfl halike hs
  exact ⟨s, hs, ⟨v, l, hc, hl, hneed 2 _ _ l hc (.inr rfl) hl⟩, hlength, hwatches⟩

/-- A segment that looks like a query. -/
def marked : Endpoint := ⟨"h", 1, ["a?v=1"], ∅⟩

def queried : Endpoint := ((Endpoint.ofHost "h" 1).addSegment "a").setParameter "v" "1"

/-- **Two places of one key**: the key says nothing about where the segments end.  The consumer
that comes for the one endpoint goes for the other, and a watch stays behind for a key that has no
listener any more. -/
theorem two_places_of_one_key :
    (marked.key Nodes.kind = .ok "zookeeper://h:1/a?v=1" ∧ marked.path = .ok "/a?v=1") ∧
    (queried.key Nodes.kind = .ok "zookeeper://h:1/a?v=1" ∧ queried.path = .ok "/a") ∧
    ∃ s, fresh.run [.start 0 (.subscribe marked "c"), .go 0, .go 0, .go 0,
        .start 1 (.unsubscribe queried "c"), .go 1, .go 1] = some s ∧
      (∀ n, s.calls n = none) ∧ s.core.hasListener "zookeeper://h:1/a?v=1" = false ∧
      s.watchesOf "zookeeper://h:1/a?v=1" =
        [("/a?v=1", ⟨1, .forwarder 7 "zookeeper://h:1/a?v=1" 0⟩)] := by
  refine ⟨⟨rfl, rfl⟩, ⟨rfl, rfl⟩, _, rfl, fun n => ?_, by decide, by decide⟩
  match n with
  | 0 => rfl
  | 1 => rfl
  | _ + 2 => rfl

end Discovery.Registry.Interplay
