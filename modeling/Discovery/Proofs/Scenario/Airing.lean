import Discovery.Proofs.Scenario.Simulation
import Discovery.Proofs.Services.Broadcast

/-!
# Worlds and broadcasts

A world holds a registry over a directory among other things.  As long as nobody acts when called
and no rule stands between the registry and the directory, what happens in the world is a move of
the broadcast that shows this registry (`Airs`): a call begins or goes on (`Airs.start`,
`Airs.stepCall`), or somebody else uses the directory (`Airs.request`).
-/

namespace Discovery.Scenario.World

open Host (Together)
open Naming (Directory)
open Registry (Services)
open Registry.Services (Broadcast)

/-- **A world shows a registry over a directory as a broadcast does.** -/
structure Airs (id n : Nat) (w : World) (b : Broadcast) : Prop where
  client : w.clients[n]? = some (.directory b.play.client)
  adapter : w.adapter? id = some (.services b.play.registry n)
  identity : b.play.core.id = id
  unruled : ∀ m, w.members[id]? = some m → m.rules = []
  conduct : b.conduct = w.conduct
  heard : (b.heard.map observed).Sublist w.events

variable {id n : Nat} {w : World} {b : Broadcast}

theorem airs_begin {m : Member} {d : Directory} (hm : w.members[id]? = some m)
    (ha : m.adapter = .services (.new id) n) (hr : m.rules = [])
    (hd : w.clients[n]? = some (.directory d)) :
    w.Airs id n (Broadcast.begin w.conduct d id) := by
  refine ⟨hd, ?_, rfl, fun m' hm' => ?_, rfl, List.nil_sublist _⟩
  · unfold adapter?
    rw [hm]
    exact congrArg some ha
  · obtain rfl := Option.some.inj (hm.symm.trans hm')
    exact hr

/-! ### What leaves the registry alone -/

theorem Airs.modifyCore_of_ne (h : w.Airs id n b) {i : Nat} (hi : i ≠ id)
    (f : Registry.Core → Registry.Core) : (w.modifyCore i f).Airs id n b := by
  refine ⟨h.client, ?_, h.identity, unruled_modifyCore h.unruled, h.conduct, h.heard⟩
  rw [adapter?_modifyCore, h.adapter, Option.map_some, if_neg hi]

theorem Airs.modifyCore (h : w.Airs id n b) {f : Registry.Core → Registry.Core}
    (hf : (f b.play.core).id = b.play.core.id) :
    (w.modifyCore id f).Airs id n { b with play.registry.core := f b.play.core } := by
  refine ⟨h.client, ?_, hf.trans h.identity, unruled_modifyCore h.unruled, h.conduct, h.heard⟩
  rw [adapter?_modifyCore, h.adapter, Option.map_some, if_pos rfl]
  rfl

theorem Airs.write (h : w.Airs id n b) (lines : List LogLine) : (w.write lines).Airs id n b :=
  ⟨h.client, h.adapter, h.identity, h.unruled, h.conduct, h.heard⟩

theorem Airs.emit (h : w.Airs id n b) (e : Event) : (w.emit e).Airs id n b :=
  ⟨h.client, h.adapter, h.identity, h.unruled, h.conduct,
    h.heard.trans (List.sublist_append_left _ _)⟩

theorem Airs.setClient (h : w.Airs id n b) (d : Directory) :
    (w.setClient n (.directory d)).Airs id n { b with play.client := d } := by
  refine ⟨?_, h.adapter, h.identity, h.unruled, h.conduct, h.heard⟩
  obtain ⟨hn, -⟩ := List.getElem?_eq_some_iff.1 h.client
  exact List.getElem?_set_self hn

/-! ### Telling -/

theorem together_broadcast (key : String) :
    Together (fun w b => w.Airs id n b) (host quiet (.member id)) (Broadcast.host key) where
  roster h := by
    show ((World.core? _ id).map _).getD _ = _
    unfold World.core?
    rw [h.adapter]
    rfl
  update k h := h.modifyCore rfl
  called c data h := by
    refine ⟨⟨h.client, h.adapter, h.identity, h.unruled, h.conduct, ?_⟩, ?_⟩
    · show (List.map observed (_ ++ [_])).Sublist (_ ++ [_])
      rw [List.map_append]
      exact h.heard.append (List.Sublist.refl _)
    · show _ = Broadcast.conduct _ _ c data
      rw [h.conduct]
      rfl
  log line h := h.write [line]

theorem Airs.forwardService (h : w.Airs id n b) (e : Naming.Event) :
    (w.forwardService quiet (.member id) e).Airs id n (b.forward e) := by
  obtain ⟨service, is⟩ := e
  unfold World.forwardService Broadcast.forward
  dsimp only
  induction is generalizing w b with
  | nil => exact h
  | cons i is ih => exact ih ((together_broadcast i.service).tell h).1

theorem Airs.forwardService_of_ne (h : w.Airs id n b) {i : Nat} (hi : i ≠ id) (e : Naming.Event) :
    (w.forwardService quiet (.member i) e).Airs id n b := by
  obtain ⟨service, is⟩ := e
  unfold World.forwardService
  dsimp only
  induction is generalizing w with
  | nil => exact h
  | cons j is ih =>
    exact ih (keeps_tell (P := fun w => w.Airs id n b) (fun w f h => h.modifyCore_of_ne hi f)
      (fun w e h => h.emit e) (fun w lines h => h.write lines) h j.service j.metadata)

theorem Airs.deliverService (h : w.Airs id n b) (d : Naming.Delivery) :
    (World.deliverService quiet w d).Airs id n (b.hear d) := by
  obtain ⟨l, e⟩ := d
  cases l with
  | named l => exact h.emit _
  | forwarder i key serial =>
    show (w.forwardService quiet (.member i) e).Airs id n _
    have hown : (Listener.forwarder i key serial).isOf id = true ↔ i = id := beq_iff_eq
    unfold Broadcast.hear
    dsimp only
    rw [h.identity]
    by_cases hi : i = id
    · rw [if_pos (hown.2 hi), hi]
      exact h.forwardService e
    · rw [if_neg (hi ∘ hown.1)]
      exact h.forwardService_of_ne hi e

theorem Airs.deliverServices : ∀ (ds : List Naming.Delivery) {w : World} {b : Broadcast},
    w.Airs id n b → (w.deliverServices quiet ds).Airs id n (b.hearAll ds) := by
  intro ds
  induction ds with
  | nil => intro w b h; exact h
  | cons d ds ih => intro w b h; exact ih (h.deliverService d)

/-! ### The directory -/

theorem Airs.askService (h : w.Airs id n b) (q : Naming.Request) :
    (w.askService quiet n q).1.Airs id n (b.ask q) ∧
      (w.askService quiet n q).2 = some (.ok ()) := by
  unfold World.askService
  rw [h.client]
  exact ⟨Airs.deliverServices _ (h.setClient _), rfl⟩

/-- **A request of somebody else** is a move. -/
theorem Airs.request (h : w.Airs id n b) {q : Naming.Request}
    (hq : q.listener?.any (·.isOf id) = false) : ∃ b', b.step (.request () q) = some b' ∧
      (w.askService quiet n q).1.Airs id n b' := by
  refine ⟨_, if_neg ?_, (h.askService q).1⟩
  rw [h.identity, hq]
  exact Bool.false_ne_true

/-! ### Calls -/

/-- **A step of a call is taken up** in the world as in the broadcast. -/
theorem Airs.takeServices (h : w.Airs id n b) (k : Nat)
    (st : Registry.Step Services Services.Call)
    (hid : st.registry.core.id = b.play.registry.core.id) :
    (w.takeServices id n st).1.Airs id n { b with play := b.play.take k st } ∧
      (w.takeServices id n st).2 = ((b.play.take k st).calls k).map .services := by
  have ha : w.adapter? id ≠ none := h.adapter ▸ Option.some_ne_none _
  refine ⟨⟨h.client, adapter?_setAdapter ha _, hid.trans h.identity,
    unruled_setAdapter h.unruled _, h.conduct, h.heard⟩, ?_⟩
  show _ = Option.map _ (Function.update b.play.calls k st.call k)
  rw [Function.update_self]
  rfl

/-- **A call begins** in the world as in the broadcast. -/
theorem Airs.start (h : w.Airs id n b) {k : Nat} (hk : b.play.calls k = none)
    (a : Registry.Action) : ∃ b', b.step (.start k a) = some b' ∧
      (w.takeServices id n (b.play.registry.start a)).1.Airs id n b' ∧
      (w.takeServices id n (b.play.registry.start a)).2 = (b'.play.calls k).map .services := by
  have hs : b.step (.start k a) =
      some { b with play := b.play.take k (b.play.registry.start a) } := by
    show (b.play.step Directory.provider (.start k a)).map _ = _
    dsimp only [Services.Interplay.step]
    rw [hk]
    rfl
  exact ⟨_, hs, h.takeServices k _ (Broadcast.id_step hs)⟩

theorem Airs.askServiceUnderRules (h : w.Airs id n b) (q : Naming.Request) :
    (w.askServiceUnderRules quiet id n q).1.Airs id n (b.ask q) ∧
      (w.askServiceUnderRules quiet id n q).2 = some (.ok ()) := by
  have hw : (w.modifyMember id fun m => { m with rules := [] }).Airs id n b :=
    ⟨h.client, (adapter?_unruled w id).trans h.adapter, h.identity, unruled_unruled w id,
      h.conduct, h.heard⟩
  obtain ⟨hask, hreply⟩ := hw.askService q
  unfold World.askServiceUnderRules
  rw [takeRule_of_unruled h.unruled (h.adapter ▸ Option.some_ne_none _)]
  dsimp only
  rw [hreply]
  exact ⟨hask, rfl⟩

def provideServices (w : World) (id n : Nat) (c : Services.Call) :
    World × Option Nat × Passage (Except Failure Unit) :=
  w.provide quiet id none c.need
    (fun w q =>
      let (w, reply) := w.askService quiet n q
      (w, reply.getD (.ok ())))
    (fun w q => w.askServiceUnderRules quiet id n q)

/-- **A call looks whether it has its lock** in the world as in the broadcast. -/
theorem Airs.look (h : w.Airs id n b) (ticket : Nat) :
    (w.pollLock id ticket).1.Airs id n { b with play := b.play.look ticket } ∧
      (w.pollLock id ticket).2 = (b.play.look ticket).core.locks.holds ticket := by
  have hlook : (w.pollLock id ticket).1.Airs id n { b with play := b.play.look ticket } :=
    h.modifyCore rfl
  refine ⟨hlook, ?_⟩
  show (((w.pollLock id ticket).1.core? id).map (·.locks.holds ticket)).getD false = _
  unfold core?
  rw [hlook.adapter]
  rfl

/-- **What a call needs is got** in the world as in the broadcast, or the call has to wait. -/
theorem Airs.provide (h : w.Airs id n b) (k : Nat) (c : Services.Call) :
    (∃ w', w.provideServices id n c = (w', none, .waits) ∧ w'.Airs id n (b.go k c) ∧
        (b.go k c).play.calls = b.play.calls) ∨
      ∃ w' b' signal, w.provideServices id n c = (w', none, .goes signal) ∧ w'.Airs id n b' ∧
        b.go k c = { b' with play := b'.play.take k (b'.play.registry.resume c signal) } := by
  unfold provideServices
  cases hneed : c.need with
  | turn ticket =>
    obtain ⟨hlook, hheld⟩ := h.look ticket
    rw [Broadcast.go_of_need fun q hq => (nomatch hneed.symm.trans hq),
      Services.Interplay.go_look hneed]
    by_cases hh : (b.play.look ticket).core.locks.holds ticket = true
    · refine .inr ⟨_, _, .admitted, ?_, hlook, ?_⟩
      · unfold World.provide
        dsimp only
        rw [hheld, if_pos hh]
      · rw [if_pos hh]
    · refine .inl ⟨(w.pollLock id ticket).1, ?_, ?_, ?_⟩
      · unfold World.provide
        dsimp only
        rw [hheld, if_neg hh]
      · rw [if_neg hh]
        exact hlook
      · rw [if_neg hh]
        rfl
  | ask q =>
    obtain ⟨hask, hreply⟩ := h.askServiceUnderRules q
    have hr : w.askServiceUnderRules quiet id n q =
        ((w.askServiceUnderRules quiet id n q).1, some (.ok ())) := Prod.ext rfl hreply
    refine .inr ⟨_, b.ask q, .answered (.ok ()), ?_, hask, ?_⟩
    · unfold World.provide
      dsimp only
      rw [hr]
    · unfold Broadcast.go
      rw [hneed]
  | hand key d data => cases c <;> cases hneed

/-- **A call goes on, or has to wait**, in the world as in the broadcast. -/
theorem Airs.stepCall (h : w.Airs id n b) {k : Nat} {c : Services.Call}
    (hc : b.play.calls k = some c) : ∃ b', b.step (.go k ()) = some b' ∧
      (w.stepCall quiet id none (.services c) =
            ((w.stepCall quiet id none (.services c)).1, none, none) ∧
          (w.stepCall quiet id none (.services c)).1.Airs id n b' ∧ b'.play.calls k = some c ∨
        ∃ w' resume, w.stepCall quiet id none (.services c) = (w', none, some resume) ∧
          (resume w').1.Airs id n b' ∧ (resume w').2 = (b'.play.calls k).map .services) := by
  have hstep : b.step (.go k ()) = some (b.go k c) := by
    show (b.play.calls k).map (b.go k) = _
    rw [hc, Option.map_some]
  refine ⟨b.go k c, hstep, ?_⟩
  have hprovide := h.provide k c
  unfold provideServices at hprovide
  unfold World.stepCall
  rw [h.adapter]
  dsimp only
  rcases hprovide with ⟨w', hw, hairs, hcalls⟩ | ⟨w', b', signal, hw, hairs, hgo⟩
  · rw [hw]
    exact .inl ⟨rfl, hairs, (congrFun hcalls k).trans hc⟩
  · rw [hw]
    refine .inr ⟨_, _, rfl, ?_⟩
    dsimp only
    rw [hairs.adapter, hgo]
    refine hairs.takeServices k _ ?_
    have hid := Broadcast.id_step hstep
    rw [hgo] at hid
    exact hid.trans (h.identity.trans hairs.identity.symm)

end Discovery.Scenario.World
