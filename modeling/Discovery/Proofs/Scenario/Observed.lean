import Discovery.Proofs.Scenario.Accounts
import Discovery.Scenario.Run

/-!
# What is observed of the tree

A ledger can be kept of a whole scenario, through all commands, scripts and tasks.  So what is
observed of the listeners of the tree is what the acts of the scenario owe them.

* `leads_run`, `proper_reaction`, `leads_settle`: things go on as on a ledger in each command, in
  the scripts of those who are called, and in the tasks.
* `booked_observeFrom`: over all turns.
* `told_of_observe`: a listener with a name is told of an event as often as something was done of
  which it was to be told.
-/

namespace Discovery.Scenario.World

open Registry (Nodes Services)
open Tree.Server (Ledger)

variable {w w' : World} {react : Reaction} {past : List Tree.Delivery} {k : Ledger}

/-! ### Commands -/

theorem leads_memberId (w : World) (r : String) : w.Leads (w.memberId r).1 := by
  unfold memberId
  split
  · exact leads_refl w
  · exact (leads_connect w).trans (leads_of_still rfl rfl)

theorem leads_releaseMember (hreact : Proper react) (w : World) (id : Nat) :
    w.Leads (w.releaseMember react id) := by
  unfold releaseMember
  split
  · exact leads_letGo hreact w _
  · exact leads_refl w

theorem leads_replaceMember (hreact : Proper react) (w : World) (name : String) (a : Adapter) :
    w.Leads (w.replaceMember react name a) := by
  have hadd : w.Leads (w.addMember name a) := leads_of_still rfl rfl
  unfold replaceMember
  dsimp only
  split
  · exact hadd.trans (leads_releaseMember hreact _ _)
  · exact hadd

theorem leads_replaceSession (hreact : Proper react) (w : World) (s : String) :
    w.Leads (w.replaceSession react s).1 := by
  unfold replaceSession
  dsimp only
  split
  · refine Leads.trans ?_ (leads_letGo hreact _ _)
    exact (leads_connect w).trans (leads_of_still rfl rfl)
  · exact (leads_connect w).trans (leads_of_still rfl rfl)

theorem leads_dropClient (w : World) (n : String) : w.Leads (w.dropClient n) := by
  unfold dropClient
  split
  · exact leads_refl w
  · dsimp only
    split
    · split <;> exact leads_of_still rfl rfl
    · exact leads_of_still rfl rfl

theorem leads_runTree (hreact : Proper react) (w : World) (c : TreeCommand) :
    w.Leads (w.runTree react c).1 := by
  cases c with
  | connect s => exact leads_replaceSession hreact w s
  | ask s q =>
    have hup : w.Leads ((w.session s).1.takeUp (w.session s).2) :=
      (leads_session w s).trans (leads_of_still rfl rfl)
    exact (hup.trans (leads_askNode hreact _ _ q)).trans (leads_layDown hreact _ _)
  | close s => exact (leads_session w s).trans (leads_close hreact _ _)
  | isClosed s => exact leads_session w s
  | drop s =>
    unfold runTree
    dsimp only
    split
    · refine Leads.trans ?_ (leads_letGo hreact _ _)
      exact leads_of_still rfl rfl
    · exact leads_refl w
  | write p data => exact leads_writeNode hreact w p data
  | clearHistory => exact leads_clearHistory w
  | data p | isEphemeral p | children p | paths | watchCount p | history => exact leads_refl w

theorem leads_runRoster (hreact : Proper react) (w : World) (u : RosterRef) (c : RosterCommand) :
    w.Leads (w.runRoster react u c).1 := by
  cases c with
  | attach key c | detach key c => exact leads_modifyRoster w u _
  | tell key data => exact leads_tell hreact u key data w
  | tellOne key c data => exact leads_tellOne hreact u key c data w
  | fail operation key reason => exact (leads_modifyRoster w u _).trans (leads_write _ _)
  | failures operation => exact leads_modifyRoster w u _
  | forwardNode key e => exact leads_forwardNode hreact w u key e
  | forwardService e => exact leads_forwardService hreact w u e
  | count key | keys | keyOf e | meterText => exact leads_refl w

theorem leads_runNaming (hreact : Proper react) (w : World) (c : NamingCommand) :
    w.Leads (w.runNaming react c).1 := by
  cases c with
  | publish e => exact leads_deliverServices hreact w _
  | request n q => exact (leads_client w n).trans (leads_askService hreact _ _ q)
  | drop n => exact leads_dropClient w n
  | remote n settings =>
    unfold runNaming
    dsimp only
    split <;> exact leads_of_still rfl rfl
  | _ => exact leads_of_still rfl rfl

/-- **In each command things go on as on a ledger.** -/
theorem leads_run (hreact : Proper react) (w : World) (c : Command) :
    w.Leads (w.run react c).1 := by
  cases c with
  | tree c => exact leads_runTree hreact w c
  | roster u c => exact (leads_rosterRef w u).trans (leads_runRoster hreact _ _ c)
  | naming c => exact leads_runNaming hreact w c
  | scriptListener n times steps => exact leads_setScript w (.listener n) _
  | scriptNamingListener n times steps => exact leads_setScript w (.namingListener n) _
  | scriptConsumer n times panic steps => exact leads_setScript w (.consumer n) _
  | nodesRegistry r => exact (leads_connect w).trans (leads_replaceMember hreact _ r _)
  | servicesRegistry r n => exact (leads_client w n).trans (leads_replaceMember hreact _ r _)
  | act r a =>
    have hbegin := (leads_memberId w r).trans (leads_begin hreact _ (w.memberId r).2 a)
    unfold run
    dsimp only
    generalize (w.memberId r).1.begin react (w.memberId r).2 a = x at hbegin ⊢
    obtain ⟨w', left⟩ := x
    cases left <;> exact hbegin
  | hasListener r key => exact leads_memberId w r
  | dropRegistry r =>
    unfold run
    dsimp only
    split
    · refine Leads.trans ?_ (leads_releaseMember hreact _ _)
      exact leads_of_still rfl rfl
    · exact leads_refl w
  | inject r rule => exact (leads_memberId w r).trans (leads_of_still rfl rfl)
  | release r => exact (leads_memberId w r).trans (leads_of_still rfl rfl)
  | newRoster u kind => exact leads_of_still rfl rfl
  | spawn t step => exact leads_refl w

theorem leads_attempt (hreact : Proper react) (w : World) (c : Command) :
    w.Leads (w.attempt react c).1 := by
  have hrun := leads_run hreact w c
  unfold attempt
  generalize w.run react c = x at hrun ⊢
  obtain ⟨w', r⟩ := x
  cases r with
  | answer a => exact hrun
  | waits p => exact hrun.trans (leads_cancel hreact w' p)

theorem leads_submit (hreact : Proper react) (w : World) (c : Command) :
    w.Leads (w.submit react c).1 := by
  unfold submit
  split
  · exact leads_of_still rfl rfl
  · exact leads_attempt hreact w c

theorem leads_perform (hreact : Proper react) (name : String) :
    ∀ (cs : List Command) (w : World), w.Leads (perform react name cs w) := by
  intro cs
  induction cs with
  | nil => exact leads_refl
  | cons c cs ih =>
    intro w
    refine Leads.trans (leads_attempt hreact w c) (Leads.trans ?_ (ih _))
    exact leads_emit _ rfl

/-- **Whoever is called does only what can be done in a world**, to any depth. -/
theorem proper_reaction : ∀ depth : Nat, Proper (reaction depth) := by
  intro depth
  induction depth with
  | zero =>
    intro a w
    exact leads_refl w
  | succ depth ih =>
    intro a w
    exact (leads_takeScript w a).trans (leads_perform ih _ _ _)

/-! ### Tasks -/

theorem leads_runTask (hreact : Proper react) (w : World) (t : Task) :
    w.Leads (runTask react w t) := by
  unfold runTask
  cases t.work with
  | fresh step =>
    have hrun := leads_run hreact w step
    dsimp only
    generalize w.run react step = x at hrun ⊢
    obtain ⟨w', a | p⟩ := x
    · exact hrun.trans (leads_emit w' rfl)
    · exact hrun.trans (leads_of_still rfl rfl)
  | call p =>
    have hpoll := leads_poll hreact w p
    dsimp only
    generalize w.poll react p = x at hpoll ⊢
    obtain ⟨w', _ | p⟩ := x
    · exact hpoll.trans (leads_emit w' rfl)
    · exact hpoll.trans (leads_of_still rfl rfl)

theorem leads_settle (hreact : Proper react) : ∀ (fuel : Nat) (w : World),
    w.Leads (settle react fuel w) := by
  intro fuel
  induction fuel with
  | zero => exact leads_refl
  | succ fuel ih =>
    intro w
    unfold settle
    split
    · exact leads_refl w
    · refine Leads.trans ?_ (ih _)
      refine Leads.trans ?_ (leads_runTask hreact _ _)
      exact leads_of_still rfl rfl

/-! ### Scenarios -/

def toldIn (os : List Observed) : List Tree.Delivery :=
  (os.flatMap (·.events)).filterMap Event.delivery?

def afterTurns (w : World) (ts : List Turn) : World :=
  ts.foldl (fun w t => (w.step t).1) w

/-- **A ledger can be kept over all turns.** -/
theorem booked_observeFrom : ∀ (ts : List Turn) {w : World} {past : List Tree.Delivery}
    {k : Ledger}, w.Booked past k → ∃ k', k.Leads k' ∧ k'.owed = k.owed ∧
      k'.server = (w.afterTurns ts).server ∧
      (k'.made.map (·.2)).filter (·.listener.isNamed) =
        past ++ w.told ++ toldIn (w.observeFrom ts) := by
  intro ts
  induction ts with
  | nil =>
    intro w past k hk
    refine ⟨k, .refl, rfl, hk.server.symm, ?_⟩
    rw [hk.told]
    exact (List.append_nil _).symm
  | cons t ts ih =>
    intro w past k hk
    -- What a turn begins with is not observed again, so it belongs to the past from now on.
    have hclear : ({ w with events := [], log := [] } : World).Booked (past ++ w.told) k := by
      refine ⟨hk.server, ?_⟩
      rw [hk.told]
      exact (List.append_nil _).symm
    have hreact := proper_reaction (w.weight + t.command.weight + 1)
    have hstep : World.Leads { w with events := [], log := [] } (w.step t).1 :=
      (leads_submit hreact _ t.command).trans (leads_settle hreact _ _)
    obtain ⟨k', hto, howed, hk'⟩ := hstep hclear
    obtain ⟨k'', hto', howed', hserver, htold⟩ := ih hk'
    refine ⟨k'', hto.trans hto', howed'.trans howed, hserver, ?_⟩
    have hcons : toldIn (w.observeFrom (t :: ts)) =
        (w.step t).1.told ++ toldIn ((w.step t).1.observeFrom ts) :=
      List.filterMap_append ..
    rw [htold, hcons, List.append_assoc (past ++ w.told)]

open Classical in
/-- **Events are accounted for over a whole scenario**, whatever the listeners do that are called.
There are acts that bring the server to where it is afterwards, and a listener with a name is told
of an event as often as one of them owes it a call with this event. -/
theorem told_of_observe (ts : List Turn) : ∃ k : Ledger, k.Runs ∧ k.owed = [] ∧
    k.server = (afterTurns ∅ ts).server ∧
    ∀ l e, (toldIn (observe ts)).count ⟨.named l, e⟩ =
      k.acts.countP fun x => x.1.Owes x.2 ⟨.named l, e⟩ := by
  have hblank : (∅ : World).Booked [] Ledger.blank := ⟨rfl, rfl⟩
  obtain ⟨k, hto, howed, hserver, htold⟩ := booked_observeFrom ts hblank
  refine ⟨k, hto, howed, hserver, fun l e => ?_⟩
  have hobserved : (k.made.map (·.2)).filter (·.listener.isNamed) = toldIn (observe ts) := htold
  rw [← hobserved, List.count_filter rfl]
  exact Ledger.count_told hto howed _

end Discovery.Scenario.World
