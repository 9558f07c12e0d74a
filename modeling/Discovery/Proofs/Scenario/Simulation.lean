import Discovery.Proofs.Registry.Effect
import Discovery.Proofs.Registry.Progress
import Discovery.Proofs.Roster
import Discovery.Scenario.Progress

/-!
# Worlds and interplays

A world holds a registry over the tree among other things.  As long as nobody acts when called and
no rule stands between the registry and its client, what happens in the world is a move of the
interplay that shows this registry (`Shows`): a call begins or goes on (`Shows.start`,
`Shows.stepCall`, `Shows.advance`), or somebody else uses the tree (`Shows.request`,
`Shows.writeNode`, `Shows.connect`, `Shows.close`).
-/

namespace Discovery.Scenario.World

open Registry (Nodes Interplay Notice)
open Host (Together)

def quiet : Reaction :=
  fun _ w => w

def conduct (w : World) : Registry.Conduct := fun _ c _ =>
  match (w.script? (.consumer c)).bind (·.panic) with
  | some p => .panicked p
  | none => .completed

def observed (x : Notice) : Event :=
  .consumer x.consumer x.data

/-- **A world shows a registry as an interplay does.** -/
structure Shows (id : Nat) (w : World) (s : Interplay) : Prop where
  server : w.server = s.server
  adapter : w.adapter? id = some (.nodes s.registry)
  identity : s.registry.core.id = id
  unruled : ∀ m, w.members[id]? = some m → m.rules = []
  conduct : s.conduct = w.conduct
  heard : (s.heard.map observed).Sublist w.events

variable {id : Nat} {w : World} {s : Interplay}

theorem shows_begin {m : Member} {session : Tree.SessionId} (hm : w.members[id]? = some m)
    (ha : m.adapter = .nodes (.new id session)) (hr : m.rules = []) :
    w.Shows id (Interplay.begin w.conduct w.server id session) := by
  refine ⟨rfl, ?_, rfl, fun m' hm' => ?_, rfl, List.nil_sublist _⟩
  · unfold adapter?
    rw [hm]
    exact congrArg some ha
  · obtain rfl := Option.some.inj (hm.symm.trans hm')
    exact hr

/-! ### Members -/

theorem getElem?_modifyMember (w : World) (i j : Nat) (f : Member → Member) :
    (w.modifyMember i f).members[j]? = (w.members[j]?).map fun m => if i = j then f m else m :=
  List.getElem?_modify ..

theorem adapter?_modifyCore (w : World) (i : Nat) (f : Registry.Core → Registry.Core) :
    (w.modifyCore i f).adapter? id =
      (w.adapter? id).map fun a => if i = id then a.mapCore f else a := by
  unfold adapter? modifyCore
  rw [getElem?_modifyMember, Option.map_map, Option.map_map]
  congr 1
  funext m
  dsimp only [Function.comp_apply]
  split <;> rfl

theorem unruled_modifyCore {i : Nat} {f : Registry.Core → Registry.Core}
    (h : ∀ m, w.members[id]? = some m → m.rules = []) :
    ∀ m, (w.modifyCore i f).members[id]? = some m → m.rules = [] := by
  intro m hm
  unfold modifyCore at hm
  rw [getElem?_modifyMember] at hm
  obtain ⟨m', hm', rfl⟩ := Option.map_eq_some_iff.1 hm
  have hrules := h m' hm'
  split <;> exact hrules

theorem takeRule_of_unruled (h : ∀ m, w.members[id]? = some m → m.rules = [])
    (ha : w.adapter? id ≠ none) (operation target : String) :
    w.takeRule id operation target = (w.modifyMember id fun m => { m with rules := [] }, none) := by
  unfold takeRule
  cases hm : w.members[id]? with
  | none => exact absurd (by unfold adapter?; rw [hm]; rfl) ha
  | some m =>
    dsimp only
    rw [h m hm]
    rfl

theorem adapter?_unruled (w : World) (id : Nat) :
    (w.modifyMember id fun m => { m with rules := [] }).adapter? id = w.adapter? id := by
  unfold adapter?
  rw [getElem?_modifyMember, Option.map_map]
  congr 1
  funext m
  dsimp only [Function.comp_apply]
  rw [if_pos rfl]

theorem unruled_unruled (w : World) (id : Nat) :
    ∀ m, (w.modifyMember id fun m => { m with rules := [] }).members[id]? = some m →
      m.rules = [] := by
  intro m hm
  rw [getElem?_modifyMember] at hm
  obtain ⟨m', -, rfl⟩ := Option.map_eq_some_iff.1 hm
  rw [if_pos rfl]

theorem adapter?_setAdapter (ha : w.adapter? id ≠ none) (a : Adapter) :
    (w.setAdapter id a).adapter? id = some a := by
  unfold adapter? at ha ⊢
  show ((w.modifyMember id fun m => { m with adapter := a }).members[id]?).map _ = _
  rw [getElem?_modifyMember]
  cases hm : w.members[id]? with
  | none => exact absurd (by rw [hm]; rfl) ha
  | some m =>
    dsimp only [Option.map_some]
    rw [if_pos rfl]

theorem unruled_setAdapter (h : ∀ m, w.members[id]? = some m → m.rules = []) (a : Adapter) :
    ∀ m, (w.setAdapter id a).members[id]? = some m → m.rules = [] := by
  intro m hm
  change (w.modifyMember id fun m => { m with adapter := a }).members[id]? = some m at hm
  rw [getElem?_modifyMember] at hm
  obtain ⟨m', hm', rfl⟩ := Option.map_eq_some_iff.1 hm
  rw [if_pos rfl]
  exact h m' hm'

theorem Shows.modifyCore_of_ne (h : w.Shows id s) {i : Nat} (hi : i ≠ id)
    (f : Registry.Core → Registry.Core) : (w.modifyCore i f).Shows id s := by
  refine ⟨h.server, ?_, h.identity, unruled_modifyCore h.unruled, h.conduct, h.heard⟩
  rw [adapter?_modifyCore, h.adapter, Option.map_some, if_neg hi]

theorem Shows.modifyCore (h : w.Shows id s) {f : Registry.Core → Registry.Core}
    (hf : (f s.registry.core).id = s.registry.core.id) :
    (w.modifyCore id f).Shows id { s with registry.core := f s.registry.core } := by
  refine ⟨h.server, ?_, hf.trans h.identity, unruled_modifyCore h.unruled, h.conduct, h.heard⟩
  rw [adapter?_modifyCore, h.adapter, Option.map_some, if_pos rfl]
  rfl

theorem Shows.write (h : w.Shows id s) (lines : List LogLine) : (w.write lines).Shows id s :=
  ⟨h.server, h.adapter, h.identity, h.unruled, h.conduct, h.heard⟩

theorem Shows.emit (h : w.Shows id s) (e : Event) : (w.emit e).Shows id s :=
  ⟨h.server, h.adapter, h.identity, h.unruled, h.conduct,
    h.heard.trans (List.sublist_append_left _ _)⟩

/-! ### Telling -/

theorem Shows.rosterAt (h : w.Shows id s) :
    w.rosterAt (.member id) = s.registry.core.roster := by
  unfold World.rosterAt World.core?
  dsimp only
  rw [h.adapter]
  rfl

theorem together_host (key : String) :
    Together (fun w s => w.Shows id s) (host quiet (.member id)) (Interplay.host key) where
  roster h := h.rosterAt
  update n h := h.modifyCore rfl
  called c data h := by
    refine ⟨⟨h.server, h.adapter, h.identity, h.unruled, h.conduct, ?_⟩, ?_⟩
    · show (List.map observed (_ ++ [_])).Sublist (_ ++ [_])
      rw [List.map_append]
      exact h.heard.append (List.Sublist.refl _)
    · show _ = Interplay.conduct _ _ c data
      rw [h.conduct]
      rfl
  log line h := h.write [line]

theorem keeps_tell {P : World → Prop} {i : Nat} (hcore : ∀ w f, P w → P (w.modifyCore i f))
    (hemit : ∀ w e, P w → P (w.emit e)) (hwrite : ∀ w lines, P w → P (w.write lines))
    (h : P w) (key : String) (data : Payload) :
    P ((host quiet (.member i)).tell key data w).1 :=
  Host.tell_induction (h := host quiet (.member i)) (P := fun _ w => P w)
    (fun _ h => hemit _ _ h) (fun _ h => hwrite _ _ h) (fun _ h => hcore _ _ h) h

theorem Shows.deliverNode (h : w.Shows id s) (d : Tree.Delivery) :
    (World.deliverNode quiet w d).Shows id (s.hear d) := by
  obtain ⟨l, e⟩ := d
  cases l with
  | named n => exact h.emit _
  | forwarder i key serial =>
    cases e with
    | deleted p => exact h
    | changed p bytes =>
      show (w.forwardNode quiet (.member i) key (.changed p bytes)).Shows id _
      unfold forwardNode Interplay.hear
      dsimp only
      rw [h.identity]
      by_cases hi : i = id
      · rw [if_pos hi, hi]
        cases Payload.decode bytes with
        | error e => exact h.write _
        | ok data => exact ((together_host key).tell h).1
      · rw [if_neg hi]
        cases Payload.decode bytes with
        | error e => exact h.write _
        | ok data =>
          exact keeps_tell (P := fun w => w.Shows id s) (fun w f h => h.modifyCore_of_ne hi f)
            (fun w e h => h.emit e) (fun w lines h => h.write lines) h key data

theorem Shows.deliverNodes : ∀ (ds : List Tree.Delivery) {w : World} {s : Interplay},
    w.Shows id s → (w.deliverNodes quiet ds).Shows id (s.hearAll ds) := by
  intro ds
  induction ds with
  | nil => intro w s h; exact h
  | cons d ds ih => intro w s h; exact ih (h.deliverNode d)

/-! ### The tree -/

theorem Shows.setServer (h : w.Shows id s) (server : Tree.Server) :
    ({ w with server } : World).Shows id { s with server } :=
  ⟨rfl, h.adapter, h.identity, h.unruled, h.conduct, h.heard⟩

theorem Shows.askNode (h : w.Shows id s) (t : Tree.SessionId) (q : Tree.Request) :
    (w.askNode quiet t q).1.Shows id (s.ask t q).1 ∧ (w.askNode quiet t q).2 = (s.ask t q).2 := by
  unfold World.askNode Interplay.ask
  rw [h.server]
  exact ⟨Shows.deliverNodes _ (h.setServer _), rfl⟩

/-- **A request of somebody else** is a move. -/
theorem Shows.request (h : w.Shows id s) {t : Tree.SessionId} {q : Tree.Request}
    (hq : q.listener?.any (·.isOf id) = false) : ∃ s', s.step (.request t q) = some s' ∧
      (w.askNode quiet t q).1.Shows id s' := by
  refine ⟨_, if_neg ?_, (h.askNode t q).1⟩
  rw [h.identity, hq]
  exact Bool.false_ne_true

theorem Shows.writeNode (h : w.Shows id s) (p : String) (data : Bytes) :
    ∃ s', s.step (.write p data) = some s' ∧ (w.writeNode quiet p data).1.Shows id s' := by
  refine ⟨_, rfl, ?_⟩
  unfold World.writeNode
  rw [h.server]
  exact Shows.deliverNodes _ (h.setServer _)

theorem Shows.connect (h : w.Shows id s) :
    ∃ s', s.step .connect = some s' ∧ w.connect.1.Shows id s' := by
  refine ⟨_, rfl, ?_⟩
  unfold World.connect
  rw [h.server]
  exact h.setServer _

/-- **Somebody else closes a session.** -/
theorem Shows.close (h : w.Shows id s) {t : Tree.SessionId} (ht : t ≠ s.registry.session) :
    ∃ s', s.step (.close t) = some s' ∧ (w.close quiet t).Shows id s' := by
  refine ⟨_, if_neg ht, ?_⟩
  unfold World.close
  rw [h.server]
  exact Shows.deliverNodes _ (h.setServer _)

/-! ### Calls -/

/-- **A step of a call is taken up** in the world as in the interplay. -/
theorem Shows.takeNodes (h : w.Shows id s) (n : Nat) (st : Registry.Step Nodes Nodes.Call)
    (hid : st.registry.core.id = s.registry.core.id) :
    (w.takeNodes id st).1.Shows id (s.take n st) ∧
      (w.takeNodes id st).2 = ((s.take n st).calls n).map .nodes := by
  have ha : w.adapter? id ≠ none := h.adapter ▸ Option.some_ne_none _
  refine ⟨⟨h.server, adapter?_setAdapter ha _, hid.trans h.identity,
    unruled_setAdapter h.unruled _, h.conduct, h.heard⟩, ?_⟩
  show _ = Option.map _ (Function.update s.calls n st.call n)
  rw [Function.update_self]
  rfl

/-- **A call begins** in the world as in the interplay. -/
theorem Shows.start (h : w.Shows id s) {n : Nat} (hn : s.calls n = none) (a : Registry.Action) :
    ∃ s', s.step (.start n a) = some s' ∧ (w.takeNodes id (s.registry.start a)).1.Shows id s' ∧
      (w.takeNodes id (s.registry.start a)).2 = (s'.calls n).map .nodes := by
  refine ⟨s.take n (s.registry.start a), ?_, h.takeNodes n _ (Nodes.id_start s.registry a)⟩
  dsimp only [Interplay.step]
  rw [hn]

theorem Shows.askNodeUnderRules (h : w.Shows id s) (t : Tree.SessionId) (q : Tree.Request) :
    (w.askNodeUnderRules quiet id t q).1.Shows id (s.ask t q).1 ∧
      (w.askNodeUnderRules quiet id t q).2 = some (s.ask t q).2 := by
  have hw : (w.modifyMember id fun m => { m with rules := [] }).Shows id s :=
    ⟨h.server, (adapter?_unruled w id).trans h.adapter, h.identity, unruled_unruled w id,
      h.conduct, h.heard⟩
  unfold World.askNodeUnderRules
  rw [takeRule_of_unruled h.unruled (h.adapter ▸ Option.some_ne_none _)]
  exact ⟨(hw.askNode t q).1, congrArg some (hw.askNode t q).2⟩

def provideNodes (w : World) (id : Nat) (r : Nodes) (c : Nodes.Call) :
    World × Option Nat × Passage Tree.Reply :=
  w.provide quiet id none c.need (fun w q => w.askNode quiet r.session q)
    (fun w q => w.askNodeUnderRules quiet id r.session q)

/-- **What a call needs is got** in the world as in the interplay. -/
theorem Shows.provide (h : w.Shows id s) (c : Nodes.Call) :
    (w.provideNodes id s.registry c).1.Shows id (s.provide c).1 ∧
      (w.provideNodes id s.registry c).2.1 = none ∧
      ((s.provide c).2 = none ∧ (w.provideNodes id s.registry c).2.2 = .waits ∨
        ∃ signal, (s.provide c).2 = some signal ∧
          (w.provideNodes id s.registry c).2.2 = .goes signal ∧ c.Fits signal) := by
  unfold provideNodes World.provide Interplay.provide Nodes.Call.Fits
  cases c.need with
  | turn ticket =>
    have hlook : (w.pollLock id ticket).1.Shows id (s.look ticket) := h.modifyCore rfl
    have hheld : (w.pollLock id ticket).2 = (s.look ticket).registry.core.locks.holds ticket := by
      have hcore : (w.pollLock id ticket).1.core? id = some (s.look ticket).registry.core := by
        unfold core?
        rw [hlook.adapter]
        rfl
      show (((w.pollLock id ticket).1.core? id).map (·.locks.holds ticket)).getD false = _
      rw [hcore]
      rfl
    dsimp only
    rw [hheld]
    refine ⟨hlook, rfl, ?_⟩
    by_cases hh : (s.look ticket).registry.core.locks.holds ticket = true
    · exact .inr ⟨.admitted, if_pos hh, if_pos hh, ticket, rfl⟩
    · exact .inl ⟨if_neg hh, if_neg hh⟩
  | ask q =>
    obtain ⟨hask, hreply⟩ := h.askNodeUnderRules s.registry.session q
    have hr : w.askNodeUnderRules quiet id s.registry.session q =
        ((w.askNodeUnderRules quiet id s.registry.session q).1,
          some (s.ask s.registry.session q).2) := Prod.ext rfl hreply
    dsimp only
    rw [hr]
    exact ⟨hask, rfl, .inr ⟨_, rfl, rfl, q, rfl⟩⟩
  | hand key c data =>
    exact ⟨((together_host key).tellOne h c).1, rfl, .inr ⟨.handed, rfl, rfl, key, c, data, rfl⟩⟩

theorem calls_provide (s : Interplay) (c : Nodes.Call) : (s.provide c).1.calls = s.calls := by
  unfold Interplay.provide
  cases c.need with
  | turn ticket => rfl
  | ask q =>
    obtain ⟨m, hm⟩ := s.told_ask s.registry.session q
    show (s.ask s.registry.session q).1.calls = _
    rw [hm]
  | hand key c data =>
    obtain ⟨m, hm⟩ := Interplay.told_tellOne key c data s
    dsimp only
    rw [hm]

/-- **A call goes on, or has to wait**, in the world as in the interplay. -/
theorem Shows.stepCall (h : w.Shows id s) {n : Nat} {c : Nodes.Call} (hc : s.calls n = some c) :
    ∃ s', s.step (.go n) = some s' ∧
      (w.stepCall quiet id none (.nodes c) = ((w.stepCall quiet id none (.nodes c)).1, none, none) ∧
          (w.stepCall quiet id none (.nodes c)).1.Shows id s' ∧ s'.calls n = some c ∨
        ∃ w' resume, w.stepCall quiet id none (.nodes c) = (w', none, some resume) ∧
          (resume w').1.Shows id s' ∧ (resume w').2 = (s'.calls n).map .nodes ∧
          ∀ d, s'.calls n = some d → d.stepsLeft < c.stepsLeft) := by
  obtain ⟨hw, hgate, hp⟩ := h.provide c
  have hcalls := calls_provide s c
  have hstep : s.step (.go n) = some (s.go n c) := by
    show (s.calls n).map (s.go n) = _
    rw [hc, Option.map_some]
  refine ⟨s.go n c, hstep, ?_⟩
  unfold World.stepCall
  rw [h.adapter]
  unfold provideNodes at hw hgate hp
  dsimp only
  generalize w.provide quiet id none c.need (fun w q => w.askNode quiet s.registry.session q)
    (fun w q => w.askNodeUnderRules quiet id s.registry.session q) = x at hw hgate hp ⊢
  obtain ⟨w', gate, passage⟩ := x
  dsimp only at hw hgate hp ⊢
  subst hgate
  unfold Interplay.go
  generalize s.provide c = y at hw hp hcalls ⊢
  obtain ⟨s', signal⟩ := y
  dsimp only at hw hp hcalls ⊢
  rcases hp with ⟨rfl, rfl⟩ | ⟨signal, rfl, rfl, hfits⟩
  · refine .inl ⟨rfl, hw, ?_⟩
    rw [hcalls]
    exact hc
  · refine .inr ⟨_, _, rfl, ?_⟩
    dsimp only
    rw [hw.adapter]
    obtain ⟨hshows, hcall⟩ := hw.takeNodes n _ (Nodes.id_resume s'.registry c signal)
    refine ⟨hshows, hcall, fun d hd => ?_⟩
    have hnext : (s'.registry.resume c signal).call = some d :=
      (Function.update_self n _ s'.calls).symm.trans hd
    exact Nodes.stepsLeft_resume hfits hnext

/-- **A call is taken as far as it gets** in the world by moves of the interplay. -/
theorem Shows.advance : ∀ (fuel : Nat) {w : World} {s : Interplay} {n : Nat} {c : Nodes.Call},
    w.Shows id s → s.calls n = some c → c.stepsLeft ≤ fuel →
    ∃ j s', s.run (List.replicate j (.go n)) = some s' ∧
      (World.advance quiet fuel w ⟨id, .nodes c, none⟩).1.Shows id s' ∧
      (World.advance quiet fuel w ⟨id, .nodes c, none⟩).2 =
        (s'.calls n).map fun c => ⟨id, .nodes c, none⟩ := by
  intro fuel
  induction fuel with
  | zero =>
    intro w s n c _ _ hfuel
    cases c <;> exact absurd hfuel (Nat.not_succ_le_zero _)
  | succ fuel ih =>
    intro w s n c h hc hfuel
    obtain ⟨s', hs', hcase⟩ := h.stepCall hc
    have hone : s.run [.go n] = some s' := by
      show (s.step (.go n)).bind _ = _
      rw [hs']
      rfl
    unfold World.advance
    dsimp only
    rcases hcase with ⟨hwait, hshows, hcall⟩ | ⟨w', resume, hgo, hshows, hcall, hless⟩
    · rw [hwait]
      refine ⟨1, s', hone, hshows, ?_⟩
      rw [hcall]
      rfl
    · rw [hgo]
      dsimp only
      cases hd : s'.calls n with
      | none =>
        rw [hd] at hcall
        have hr : resume w' = ((resume w').1, none) := Prod.ext rfl hcall
        rw [hr]
        exact ⟨1, s', hone, hshows, by rw [hd]; rfl⟩
      | some d =>
        rw [hd] at hcall
        have hr : resume w' = ((resume w').1, some (.nodes d)) := Prod.ext rfl hcall
        rw [hr]
        obtain ⟨j, s'', hrun, hshows', hcall'⟩ := ih hshows hd (by have := hless d hd; omega)
        refine ⟨j + 1, s'', ?_, hshows', hcall'⟩
        show (s.step (.go n)).bind _ = _
        rw [hs']
        exact hrun

end Discovery.Scenario.World
