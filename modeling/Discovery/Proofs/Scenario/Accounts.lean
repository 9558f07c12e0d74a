import Discovery.Proofs.Roster
import Discovery.Proofs.Tree.Ledger
import Discovery.Scenario.Progress

/-!
# The accounts of a world

Whatever is done in a world, its server is changed by acts alone, and the listeners that are owed
a call are called before anything else is done, except that they may act themselves.  So a ledger
can be kept of a world, on which each call that a listener with a name gets stands as made.

* `Booked`: a ledger shows the server of a world and the calls that were observed.
* `Leads`: from one world to another things go on as on a ledger, and nothing remains owed.
* `leads_act`: an act is done and the listeners are called, who may act themselves.
* `leads_stepCall`, `leads_advance`: so things go on while a call of a registry is taken further.
-/

namespace Discovery

/-- Whether a listener is an outside party. -/
def Listener.isNamed : Listener → Bool
  | .named _ => true
  | .forwarder .. => false

/-- A listener with a name was called, as a delivery. -/
def Scenario.Event.delivery? : Scenario.Event → Option Tree.Delivery
  | .node l e => some ⟨.named l, e⟩
  | _ => none

end Discovery

namespace Discovery.Scenario.World

open Registry (Nodes Services Need)
open Tree.Server (Ledger)

def told (w : World) : List Tree.Delivery :=
  w.events.filterMap Event.delivery?

/-- **A ledger shows a world**, after some calls that are observed no longer. -/
structure Booked (past : List Tree.Delivery) (k : Ledger) (w : World) : Prop where
  server : w.server = k.server
  told : (k.made.map (·.2)).filter (·.listener.isNamed) = past ++ w.told

/-- **Things go on in a world as they do on a ledger**, and the calls that are owed at the end are
those that were owed before. -/
def Leads (w w' : World) : Prop :=
  ∀ ⦃past k⦄, w.Booked past k → ∃ k', k.Leads k' ∧ k'.owed = k.owed ∧ w'.Booked past k'

/-- Whoever is called does only what can be done in a world. -/
def Proper (react : Reaction) : Prop :=
  ∀ (a : Actor) (w : World), w.Leads (react a w)

variable {w w' w'' : World} {react : Reaction} {past : List Tree.Delivery} {k : Ledger}

theorem leads_refl (w : World) : w.Leads w := by
  intro past k hk
  exact ⟨k, .refl, rfl, hk⟩

theorem Leads.trans (h : w.Leads w') (h' : w'.Leads w'') : w.Leads w'' := by
  intro past k hk
  obtain ⟨k', hto, howed, hk'⟩ := h hk
  obtain ⟨k'', hto', howed', hk''⟩ := h' hk'
  exact ⟨k'', hto.trans hto', howed'.trans howed, hk''⟩

/-- What neither touches the server nor calls a listener of the tree is not booked. -/
theorem leads_of_still (hserver : w'.server = w.server) (htold : w'.told = w.told) :
    w.Leads w' := by
  intro past k hk
  refine ⟨k, .refl, rfl, hserver.trans hk.server, ?_⟩
  rw [htold]
  exact hk.told

theorem told_emit (w : World) {e : Event} (he : e.delivery? = none) :
    (w.emit e).told = w.told := by
  unfold told emit
  rw [List.filterMap_append, List.filterMap_cons_none he, List.filterMap_nil, List.append_nil]

theorem leads_emit (w : World) {e : Event} (he : e.delivery? = none) : w.Leads (w.emit e) :=
  leads_of_still rfl (told_emit w he)

theorem leads_foldl {α : Type} {f : World → α → World}
    (hf : ∀ (w : World) (x : α), w.Leads (f w x)) :
    ∀ (xs : List α) (w : World), w.Leads (xs.foldl f w) := by
  intro xs
  induction xs with
  | nil => exact leads_refl
  | cons x xs ih =>
    intro w
    exact (hf w x).trans (ih (f w x))

/-! ### What the server does not notice -/

theorem leads_modifyCore (w : World) (id : Nat) (f : Registry.Core → Registry.Core) :
    w.Leads (w.modifyCore id f) :=
  leads_of_still rfl rfl

theorem leads_modifyRoster (w : World) (u : RosterRef) (f : Roster → Roster) :
    w.Leads (w.modifyRoster u f) := by
  cases u <;> exact leads_of_still rfl rfl

theorem leads_rosterRef (w : World) (u : String) : w.Leads (w.rosterRef u).1 := by
  unfold rosterRef
  split <;> exact leads_of_still rfl rfl

theorem leads_setScript (w : World) (a : Actor) (s : Script) : w.Leads (w.setScript a s) := by
  cases a <;> exact leads_of_still rfl rfl

theorem leads_takeScript (w : World) (a : Actor) : w.Leads (w.takeScript a).1 := by
  unfold takeScript
  split
  · split
    · exact leads_refl w
    · exact leads_setScript w a _
  · exact leads_refl w

theorem leads_write (w : World) (lines : List LogLine) : w.Leads (w.write lines) :=
  leads_of_still rfl rfl

theorem leads_queueAtGate (w : World) (id : Nat) : w.Leads (w.queueAtGate id).1 := by
  unfold queueAtGate
  split <;> exact leads_of_still rfl rfl

theorem leads_takeRule (w : World) (id : Nat) (operation target : String) :
    w.Leads (w.takeRule id operation target).1 := by
  unfold takeRule
  split <;> exact leads_of_still rfl rfl

theorem leads_takeUpMember (w : World) (id : Nat) : w.Leads (w.takeUpMember id) := by
  unfold takeUpMember
  split <;> exact leads_of_still rfl rfl

theorem leads_client (w : World) (n : String) : w.Leads (w.client n).1 := by
  unfold client
  split <;> exact leads_of_still rfl rfl

/-! ### Calls -/

/-- Telling consumers is not booked; they may act when they are told. -/
theorem together_leads (hreact : Proper react) (u : RosterRef) (w : World) :
    Host.Together (fun a b => a = b ∧ w.Leads a) (host react u) (host react u) where
  roster h := by rw [h.1]
  update n h := ⟨by rw [h.1], h.2.trans (leads_modifyRoster _ u _)⟩
  called c data h := by
    obtain ⟨rfl, h⟩ := h
    refine ⟨⟨rfl, h.trans ?_⟩, rfl⟩
    exact (leads_emit _ rfl).trans (hreact _ _)
  log line h := ⟨by rw [h.1], h.2.trans (leads_write _ _)⟩

theorem leads_tell (hreact : Proper react) (u : RosterRef) (key : String) (data : Payload)
    (w : World) : w.Leads ((host react u).tell key data w).1 :=
  ((together_leads hreact u w).tell ⟨rfl, leads_refl w⟩).1.2

theorem leads_tellOne (hreact : Proper react) (u : RosterRef) (key : String) (c : Consumer)
    (data : Payload) (w : World) : w.Leads ((host react u).tellOne key c data w).1 :=
  ((together_leads hreact u w).tellOne ⟨rfl, leads_refl w⟩ c).1.2

theorem leads_forwardNode (hreact : Proper react) (w : World) (u : RosterRef) (key : String)
    (e : Tree.Event) : w.Leads (w.forwardNode react u key e) := by
  unfold forwardNode
  split
  · split
    · exact leads_tell hreact u key _ w
    · exact leads_write w _
  · exact leads_refl w

theorem leads_forwardService (hreact : Proper react) (w : World) (u : RosterRef)
    (e : Naming.Event) : w.Leads (w.forwardService react u e) :=
  leads_foldl (fun w (i : Naming.Instance) => leads_tell hreact u i.service i.metadata w) _ _

theorem leads_deliverServices (hreact : Proper react) (w : World) (ds : List Naming.Delivery) :
    w.Leads (w.deliverServices react ds) := by
  apply leads_foldl
  intro w d
  unfold deliverService
  split
  · exact (leads_emit w rfl).trans (hreact _ _)
  · exact leads_forwardService hreact w _ _

/-- **A listener of the tree is called.**  The call is owed no longer, and stands as made. -/
theorem Booked.deliverNode (hk : w.Booked past k) (hreact : Proper react) {m : Nat × Tree.Delivery}
    (hm : m ∈ k.owed) : ∃ k', k.Leads k' ∧ k'.owed = k.owed.erase m ∧
      (deliverNode react w m.2).Booked past k' := by
  obtain ⟨i, ⟨l, e⟩⟩ := m
  have hcalled : ∃ w' : World, w'.Booked past (k.call (i, ⟨l, e⟩)) ∧
      w'.Leads (World.deliverNode react w ⟨l, e⟩) := by
    cases l with
    | named l =>
      refine ⟨w.emit (.node l e), ⟨hk.server, ?_⟩, hreact _ _⟩
      have htold : (w.emit (.node l e)).told = w.told ++ [⟨.named l, e⟩] := by
        unfold World.told emit
        rw [List.filterMap_append]
        rfl
      rw [htold, ← List.append_assoc, ← hk.told]
      simp [Ledger.call, Listener.isNamed]
    | forwarder id key serial =>
      refine ⟨w, ⟨hk.server, ?_⟩, leads_forwardNode hreact w _ key e⟩
      rw [← hk.told]
      simp [Ledger.call, Listener.isNamed]
  obtain ⟨w', hk', hto⟩ := hcalled
  obtain ⟨k', hto', howed, hk''⟩ := hto hk'
  exact ⟨k', .head (.call hm) hto', howed, hk''⟩

/-- **The calls that one act owes are made**, and those that were owed before are left. -/
theorem Booked.deliverNodes (hreact : Proper react) (i : Nat) (rest : List (Nat × Tree.Delivery)) :
    ∀ (ds : List Tree.Delivery) {w : World} {k : Ledger}, w.Booked past k →
      k.owed = ds.map (i, ·) ++ rest →
      ∃ k', k.Leads k' ∧ k'.owed = rest ∧ (w.deliverNodes react ds).Booked past k' := by
  intro ds
  induction ds with
  | nil =>
    intro w k hk howed
    exact ⟨k, .refl, howed, hk⟩
  | cons d ds ih =>
    intro w k hk howed
    have hd : (i, d) ∈ k.owed := by
      rw [howed]
      exact List.mem_cons_self
    obtain ⟨k', hto, howed', hk'⟩ := hk.deliverNode hreact hd
    have hrest : k'.owed = ds.map (i, ·) ++ rest := by
      rw [howed', howed, List.map_cons, List.cons_append, List.erase_cons_head]
    obtain ⟨k'', hto', hend, hk''⟩ := ih hk' hrest
    exact ⟨k'', hto.trans hto', hend, hk''⟩

/-- **An act is done and the listeners are called.** -/
theorem leads_act (hreact : Proper react) (w : World) (a : Tree.Server.Act) :
    w.Leads (({ w with server := (w.server.act a).1 } : World).deliverNodes react
      (w.server.act a).2) := by
  intro past k hk
  have hk' : ({ w with server := (w.server.act a).1 } : World).Booked past (k.act a) := by
    refine ⟨?_, hk.told⟩
    rw [hk.server]
    rfl
  have howed : (k.act a).owed = (w.server.act a).2.map (k.acts.length, ·) ++ k.owed := by
    rw [hk.server]
    rfl
  obtain ⟨k', hto, hend, hk''⟩ := Booked.deliverNodes hreact _ k.owed _ hk' howed
  exact ⟨k', .head (.act a) hto, hend, hk''⟩

/-! ### The tree -/

theorem proper_quiet : Proper fun _ w => w :=
  fun _ w => leads_refl w

theorem leads_connect (w : World) : w.Leads w.connect.1 :=
  leads_act proper_quiet w .connect

theorem leads_clearHistory (w : World) :
    w.Leads ({ w with server := w.server.clearHistory } : World) :=
  leads_act proper_quiet w .clearHistory

theorem leads_close (hreact : Proper react) (w : World) (s : Tree.SessionId) :
    w.Leads (w.close react s) :=
  leads_act hreact w (.close s)

theorem leads_askNode (hreact : Proper react) (w : World) (s : Tree.SessionId)
    (q : Tree.Request) : w.Leads (w.askNode react s q).1 :=
  leads_act hreact w (.request s q)

theorem leads_writeNode (hreact : Proper react) (w : World) (p : String) (data : Bytes) :
    w.Leads (w.writeNode react p data).1 :=
  leads_act hreact w (.write p data)

theorem leads_layDown (hreact : Proper react) (w : World) (s : Tree.SessionId) :
    w.Leads (w.layDown react s) := by
  unfold layDown
  dsimp only
  split
  · refine Leads.trans ?_ (leads_close hreact _ s)
    exact leads_of_still rfl rfl
  · exact leads_of_still rfl rfl

theorem leads_letGo (hreact : Proper react) (w : World) (s : Tree.SessionId) :
    w.Leads (w.letGo react s) := by
  unfold letGo
  split
  · exact leads_of_still rfl rfl
  · exact leads_close hreact w s

theorem leads_session (w : World) (s : String) : w.Leads (w.session s).1 := by
  unfold session
  split
  · exact leads_refl w
  · exact (leads_connect w).trans (leads_of_still rfl rfl)

/-! ### Naming clients -/

theorem leads_runPoller (hreact : Proper react) (w : World) (id task : Nat) (service : String) :
    w.Leads (w.runPoller react id task service) := by
  unfold runPoller
  split
  · dsimp only
    split
    · exact leads_of_still rfl rfl
    · split
      · refine Leads.trans ?_ (leads_deliverServices hreact _ _)
        exact leads_of_still rfl rfl
      · exact leads_of_still rfl rfl
  · exact leads_refl w

theorem leads_askService (hreact : Proper react) (w : World) (id : Nat) (q : Naming.Request) :
    w.Leads (w.askService react id q).1 := by
  unfold askService
  split
  · dsimp only
    refine Leads.trans ?_ (leads_deliverServices hreact _ _)
    exact leads_of_still rfl rfl
  · dsimp only
    split
    · split
      · exact leads_of_still rfl rfl
      · refine Leads.trans ?_ (leads_runPoller hreact _ _ _ _)
        exact leads_of_still rfl rfl
    · exact leads_of_still rfl rfl
  · exact leads_refl w

/-! ### Calls of registries -/

theorem leads_askNodeUnderRules (hreact : Proper react) (w : World) (id : Nat)
    (s : Tree.SessionId) (q : Tree.Request) :
    w.Leads (w.askNodeUnderRules react id s q).1 := by
  have hrule := leads_takeRule w id (nodeOperation q) q.path
  unfold askNodeUnderRules
  generalize w.takeRule id (nodeOperation q) q.path = x at hrule ⊢
  obtain ⟨w', found⟩ := x
  have hask := hrule.trans (leads_askNode hreact w' s q)
  cases found with
  | none => exact hask
  | some rule =>
    dsimp only
    split
    · exact hrule
    · split
      · exact hask
      · exact hrule

theorem leads_askServiceUnderRules (hreact : Proper react) (w : World) (id client : Nat)
    (q : Naming.Request) : w.Leads (w.askServiceUnderRules react id client q).1 := by
  have hrule := leads_takeRule w id (serviceOperation q) q.service
  unfold askServiceUnderRules
  generalize w.takeRule id (serviceOperation q) q.service = x at hrule ⊢
  obtain ⟨w', found⟩ := x
  have hask := hrule.trans (leads_askService hreact w' client q)
  cases found with
  | none => exact hask
  | some rule =>
    dsimp only
    split
    · exact hrule
    · split
      · exact hask
      · exact hrule

theorem leads_provide {κ ρ : Type} (hreact : Proper react) {askFree : World → κ → World × ρ}
    {askRuled : World → κ → World × Option ρ}
    (hfree : ∀ (w : World) (q : κ), w.Leads (askFree w q).1)
    (hruled : ∀ (w : World) (q : κ), w.Leads (askRuled w q).1) (w : World) (id : Nat)
    (gate : Option Nat) (need : Need κ) :
    w.Leads (w.provide react id gate need askFree askRuled).1 := by
  unfold provide
  cases need with
  | turn ticket => exact leads_modifyCore w id _
  | hand key c data => exact leads_tellOne hreact _ key c data w
  | ask q =>
    cases gate with
    | some ticket =>
      dsimp only
      split
      · exact leads_refl w
      · exact hfree w q
    | none =>
      have hask := hruled w q
      dsimp only
      generalize askRuled w q = x at hask ⊢
      obtain ⟨w', reply⟩ := x
      cases reply with
      | some reply => exact hask
      | none => exact hask.trans (leads_queueAtGate w' id)

/-- **What a call needs is got, and the call goes on with it.** -/
theorem leads_stepCall (hreact : Proper react) (w : World) (id : Nat) (gate : Option Nat)
    (c : Call) : w.Leads (w.stepCall react id gate c).1 ∧
      ∀ resume, (w.stepCall react id gate c).2.2 = some resume →
        ∀ w' : World, w'.Leads (resume w').1 := by
  unfold stepCall
  split
  · refine ⟨leads_provide hreact (fun w q => leads_askNode hreact w _ q)
      (fun w q => leads_askNodeUnderRules hreact w id _ q) w id gate _, ?_⟩
    dsimp only
    split
    · exact fun _ h => nomatch h
    · intro resume h w'
      obtain rfl := Option.some.inj h
      dsimp only
      split
      · exact leads_of_still rfl rfl
      · exact leads_refl w'
  · refine ⟨leads_provide hreact (fun w q => ?_)
      (fun w q => leads_askServiceUnderRules hreact w id _ q) w id gate _, ?_⟩
    · exact leads_askService hreact w _ q
    dsimp only
    split
    · exact fun _ h => nomatch h
    · intro resume h w'
      obtain rfl := Option.some.inj h
      dsimp only
      split
      · exact leads_of_still rfl rfl
      · exact leads_refl w'
  · refine ⟨leads_refl w, fun resume h w' => ?_⟩
    obtain rfl := Option.some.inj h
    exact leads_refl w'

theorem leads_advance (hreact : Proper react) : ∀ (fuel : Nat) (w : World) (p : Waiting),
    w.Leads (advance react fuel w p).1 := by
  intro fuel
  induction fuel with
  | zero =>
    intro w p
    exact leads_refl w
  | succ fuel ih =>
    intro w p
    obtain ⟨hstep, hresume⟩ := leads_stepCall hreact w p.member p.gate p.call
    unfold advance
    generalize w.stepCall react p.member p.gate p.call = x at hstep hresume ⊢
    obtain ⟨w', gate, resume⟩ := x
    cases resume with
    | none => exact hstep
    | some resume =>
      have hnext := hstep.trans (hresume resume rfl w')
      dsimp only at hnext ⊢
      generalize resume w' = y at hnext ⊢
      obtain ⟨w'', c⟩ := y
      cases c with
      | none => exact hnext
      | some c => exact hnext.trans (ih w'' _)

theorem leads_layDownMember (hreact : Proper react) (w : World) (id : Nat) :
    w.Leads (w.layDownMember react id) := by
  unfold layDownMember
  split
  · exact leads_layDown hreact w _
  · exact leads_refl w

theorem leads_poll (hreact : Proper react) (w : World) (p : Waiting) :
    w.Leads (w.poll react p).1 := by
  have hadvance := leads_advance hreact p.call.stepsLeft w p
  unfold poll
  generalize advance react p.call.stepsLeft w p = x at hadvance ⊢
  obtain ⟨w', left⟩ := x
  cases left with
  | none => exact hadvance.trans (leads_layDownMember hreact w' _)
  | some p => exact hadvance

theorem leads_begin (hreact : Proper react) (w : World) (id : Nat) (a : Registry.Action) :
    w.Leads (w.begin react id a).1 := by
  have hup := leads_takeUpMember w id
  unfold begin
  dsimp only
  split
  · refine (hup.trans ?_).trans (leads_layDownMember hreact _ id)
    split <;> exact leads_of_still rfl rfl
  · refine (hup.trans ?_).trans (leads_poll hreact _ _)
    split <;> exact leads_of_still rfl rfl

theorem leads_cancel (hreact : Proper react) (w : World) (p : Waiting) :
    w.Leads (w.cancel react p) := by
  unfold cancel
  refine Leads.trans ?_ (leads_layDownMember hreact _ _)
  split <;> exact leads_of_still rfl rfl

end Discovery.Scenario.World
