import Discovery.Proofs.Registry.LostWatches
import Discovery.Proofs.Services.OneListener

/-!
# Leftovers

What a registry leaves behind when the request to release a watch or to take down a listener fails.
The registry has forgotten the listener by then, so the next consumer of the key gets another one,
and from then on the client has two for the key.

* `two_of_failed_release`: a consumer that subscribes again after a failed release is told twice.
* `leftovers_le_of_run`: for each key there is at most one watch or listener more than releases
  have failed.
-/

namespace Discovery.Registry

open Naming (Provider)

namespace Services.Interplay

variable {κ ω : Type} {p : Provider κ ω} {s : Interplay κ}

/-- Besides the lost ones, all listeners of the registry at a service are the same. -/
theorem Orderly.same_or_lost (h : s.Orderly p) (k : String) :
    ∃ i, ∀ l ∈ s.listenersAt p k, l = s.core.listener k i ∨ l ∈ s.lost := by
  by_cases hdown : ∃ n v l, s.calls n = some (.unsubscribe v l) ∧ v.key = k
  · -- a call is about to take a listener down, and the registry keeps none
    obtain ⟨n, v, l, hn, rfl⟩ := hdown
    obtain ⟨hnil, i, hl⟩ := h.phase n _ hn
    refine ⟨i, fun x hx => ?_⟩
    obtain ⟨j, _, rfl, hb⟩ := (h.settled v.key).backed x hx
    rcases hb with hb | ⟨m, w, hm, hw⟩ | hb
    · exact nomatch ((h.settled v.key).attended hnil).symm.trans hb
    · have hmn := h.queue.unique (visits_of_call hm rfl) (visits_of_call hn rfl)
        (h.holds_of_inside hm rfl rfl) (h.holds_of_inside hn rfl rfl) hw
      subst hmn
      cases hn.symm.trans hm
      exact .inl hl
    · exact .inr hb
  · have hkept : ∀ l ∈ s.listenersAt p k, ∃ i, l = s.core.listener k i ∧
        (s.core.listeners.get? k = some i ∨ l ∈ s.lost) := by
      intro l hl
      obtain ⟨i, _, rfl, hb⟩ := (h.settled k).backed l hl
      rcases hb with hb | ⟨n, v, hn, hv⟩ | hb
      · exact ⟨i, rfl, .inl hb⟩
      · exact absurd ⟨n, v, _, hn, hv⟩ hdown
      · exact ⟨i, rfl, .inr hb⟩
    refine ⟨(s.core.listeners.get? k).getD 0, fun l hl => ?_⟩
    obtain ⟨i, rfl, hi | hi⟩ := hkept l hl
    · rw [hi]
      exact .inl rfl
    · exact .inr hi

/-- **Each lost listener of a key costs one**, and besides those there is at most one. -/
theorem Orderly.length_listenersAt_le (h : s.Orderly p) (k : String) :
    (s.listenersAt p k).length ≤ 1 + s.lost.countP (·.isFor s.core.id k) := by
  obtain ⟨i, hi⟩ := h.same_or_lost k
  have hsub : s.listenersAt p k ⊆
      s.core.listener k i :: s.lost.filter (·.isFor s.core.id k) := by
    intro l hl
    obtain ⟨j, _, rfl, _⟩ := (h.settled k).backed l hl
    rcases hi _ hl with he | hmem
    · rw [he]
      exact List.mem_cons_self
    · refine List.mem_cons_of_mem _ (List.mem_filter.2 ⟨hmem, ?_⟩)
      rw [isFor_listener]
      exact beq_self_eq_true k
  have hle := (List.subperm_of_subset (h.settled k).nodup hsub).length_le
  rw [List.length_cons, ← List.countP_eq_length_filter, Nat.add_comm] at hle
  exact hle

end Services.Interplay

/-- **What is left behind.**  However calls interleave and whichever of their requests fail, the
tree has at most one watch of a registry for a key more than releases have failed for the key, and
so has a naming client of listeners. -/
theorem leftovers_le_of_run (k : String) :
    (∀ {place : String → String} {conduct : Conduct} {v : Tree.Server} {id : Nat}
      {session : Tree.SessionId} {ms : List Move} {s : Interplay} {lost : List Listener},
      v.isClosed session = false → (∀ p, ∀ w ∈ v.tree.watchesAt p, w.listener.isOf id = false) →
      (∀ m ∈ ms, m.Placed place) →
      Interplay.attempts (.begin conduct v id session, []) ms = some (s, lost) →
      (s.watchesOf k).length ≤ 1 + lost.countP (·.isFor id k)) ∧
    ∀ {κ ω : Type} {p : Provider κ ω} {client : κ} {id : Nat} {ms : List (Services.Move κ ω)}
      {s : Services.Interplay κ},
      (∀ k, ∀ l ∈ (p.audience client).of k, l.isOf id = false) →
      (Services.Interplay.begin client id).run p ms = some s →
      (s.listenersAt p k).length ≤ 1 + s.lost.countP (·.isFor id k) := by
  constructor
  · intro place conduct v id session ms s lost hopen hnew hms hrun
    obtain ⟨h, hid⟩ := (Interplay.littered_begin hopen hnew).attempts hms hrun
    have hle := h.length_watchesOf_le k
    rw [show s.core.id = id from hid] at hle
    exact hle
  · intro κ ω p client id ms s hnew hrun
    have hle := ((Services.Interplay.orderly_begin hnew).run hrun).length_listenersAt_le k
    rw [show s.core.id = id from (Services.Interplay.later_run hrun).id] at hle
    exact hle

/-- A consumer subscribes and unsubscribes, but the watch is not released; it subscribes again, and
then the node of the key gets data. -/
def unreleased : List Move :=
  [.start 0 (.subscribe Interplay.shop "c"), .go 0, .go 0, .go 0,
    .start 0 (.unsubscribe Interplay.shop "c"), .go 0, .fail 0 (.connection "/a"),
    .start 0 (.subscribe Interplay.shop "c"), .go 0, .go 0, .go 0, .connect,
    .request 2 (.create "/a" [] .ephemeral)]

/-- The same over a naming client. -/
def stranded : List (Services.Move Naming.Directory Unit) :=
  [.start 0 (.subscribe Interplay.shop "c"), .go 0 (), .go 0 (),
    .start 0 (.unsubscribe Interplay.shop "c"), .go 0 (), .fail 0 (.backend "down"),
    .start 0 (.subscribe Interplay.shop "c"), .go 0 (), .go 0 ()]

theorem leftovers_le_of_unreleased :
    (∃ s lost, Interplay.attempts (Interplay.fresh, []) unreleased = some (s, lost) ∧
      lost.length = 1 ∧ (s.watchesOf "zookeeper://h:1/a").length ≤ 2) ∧
    ∃ s, (Services.Interplay.begin (∅ : Naming.Directory) 7).run Naming.Directory.provider
        stranded = some s ∧ s.lost.length = 1 ∧
      (s.listenersAt Naming.Directory.provider "nacos://h:1/a").length ≤ 2 := by
  obtain ⟨s, lost, hs, hlost⟩ : ∃ s lost,
      Interplay.attempts (Interplay.fresh, []) unreleased = some (s, lost) ∧ lost.length = 1 :=
    ⟨_, _, rfl, rfl⟩
  obtain ⟨t, ht, hlost'⟩ : ∃ t, (Services.Interplay.begin (∅ : Naming.Directory) 7).run
      Naming.Directory.provider stranded = some t ∧ t.lost.length = 1 := ⟨_, rfl, rfl⟩
  have hms : ∀ m ∈ unreleased, m.Placed fun _ => "/a" := Interplay.placed_of_all (by decide)
  have hle := (leftovers_le_of_run "zookeeper://h:1/a").1 rfl
    (fun p w hw => absurd hw List.not_mem_nil) hms hs
  have hle' := (leftovers_le_of_run "nacos://h:1/a").2
    (fun k l hl => absurd hl List.not_mem_nil) ht
  refine ⟨⟨s, lost, hs, hlost, hle.trans ?_⟩, t, ht, hlost', hle'.trans ?_⟩
  · exact Nat.add_le_add_left (List.countP_le_length.trans (Nat.le_of_eq hlost)) 1
  · exact Nat.add_le_add_left (List.countP_le_length.trans (Nat.le_of_eq hlost')) 1

/-- **After a failed release there are two**, and a change reaches a consumer twice. -/
theorem two_of_failed_release :
    (∃ s lost, Interplay.attempts (Interplay.fresh, []) unreleased = some (s, lost) ∧
      (∀ n, s.calls n = none) ∧ (s.watchesOf "zookeeper://h:1/a").length = 2 ∧
      s.heard = [⟨"zookeeper://h:1/a", "c", ∅⟩, ⟨"zookeeper://h:1/a", "c", ∅⟩]) ∧
    ∃ s, (Services.Interplay.begin (∅ : Naming.Directory) 7).run Naming.Directory.provider
        stranded = some s ∧ (∀ n, s.calls n = none) ∧
      (s.listenersAt Naming.Directory.provider "nacos://h:1/a").length = 2 := by
  refine ⟨⟨_, _, rfl, fun n => ?_, by decide, by decide⟩, _, rfl, fun n => ?_, by decide⟩
  · cases n <;> rfl
  · cases n <;> rfl

end Discovery.Registry
