import Discovery.Naming.Directory
import Discovery.Naming.Remote.Client

/-!
# Naming providers

What a registry needs of a naming client: who subscribes to a service is in its audience
afterwards, who unsubscribes is not, and both requests succeed; other requests leave the audience
alone.  Directories and remote clients both do so.
-/

namespace Discovery.Naming

def Request.listener? : Request → Option Listener
  | .subscribe _ l | .unsubscribe _ l => some l
  | _ => none

/-- **A naming client** whose states are of type `κ`.  Its answers may depend on something from
outside, of type `ω`; there is none if the clock gives out. -/
structure Provider (κ ω : Type) where
  audience : κ → Audience
  answer : κ → ω → Request → κ × Option (Except Failure Unit)
  audience_subscribe : ∀ c w service l,
    audience (answer c w (.subscribe service l)).1 = (audience c).add service l
  audience_unsubscribe : ∀ c w service l,
    audience (answer c w (.unsubscribe service l)).1 = (audience c).remove service l
  reply : ∀ c w q l, q.listener? = some l → (answer c w q).2 = some (.ok ())
  audience_other : ∀ c w q, q.listener? = none → audience (answer c w q).1 = audience c

/-- A directory answers at once. -/
def Directory.provider : Provider Directory Unit where
  audience := Directory.audience
  answer d _ q := ((d.answer q).1, some (.ok ()))
  audience_subscribe _ _ _ _ := rfl
  audience_unsubscribe _ _ _ _ := rfl
  reply _ _ _ _ _ := rfl
  audience_other d _ q hq := by
    cases q with
    | register service i => rfl
    | deregister service ip port ephemeral =>
      unfold Directory.answer
      dsimp only
      split <;> rfl
    | subscribe service l => exact nomatch hq
    | unsubscribe service l => exact nomatch hq

namespace Remote.Client

variable (c : Client)

theorem audience_abort? (id : Option Nat) : (c.abort? id).audience = c.audience := by
  cases id <;> rfl

theorem audience_registered (service : String) (i : Instance) (ok : Bool) :
    (c.registered service i ok).audience = c.audience := by
  unfold registered startBeat
  split
  · exact audience_abort? _ _
  · rfl

/-- A remote client answers according to the time and what the servers say. -/
def provider : Provider Client (Nat × (Exchange → Answer)) where
  audience := Client.audience
  answer c w q := ((c.answer w.1 w.2 q).client, (c.answer w.1 w.2 q).reply)
  audience_subscribe c w service l := by
    show (c.subscribe service l).audience = _
    unfold subscribe
    dsimp only
    split <;> rfl
  audience_unsubscribe c w service l := by
    show (c.unsubscribe service l).audience = _
    unfold unsubscribe
    dsimp only
    split
    · exact audience_abort? _ _
    · rfl
  reply c w q l hq := by
    cases q with
    | subscribe service l => rfl
    | unsubscribe service l => rfl
    | register service i => exact nomatch hq
    | deregister service ip port ephemeral => exact nomatch hq
  audience_other c w q hq := by
    have hquery : ∀ (c : Client) (q : Query), (c.query w.1 w.2 q).1.audience = c.audience :=
      fun _ _ => rfl
    cases q with
    | register service i =>
      have h := hquery c (registerQuery service i)
      dsimp only [answer]
      generalize c.query w.1 w.2 (registerQuery service i) = got at h ⊢
      obtain ⟨c', _ | _ | _, log⟩ := got
      · exact h
      · exact (audience_registered _ _ _ _).trans h
      · exact (audience_registered _ _ _ _).trans h
    | deregister service ip port ephemeral =>
      have h := hquery (c.stopBeat service ip port) (deregisterQuery service ip port ephemeral)
      have hstop : (c.stopBeat service ip port).audience = c.audience := audience_abort? _ _
      dsimp only [answer]
      generalize (c.stopBeat service ip port).query w.1 w.2
        (deregisterQuery service ip port ephemeral) = got at h ⊢
      obtain ⟨c', _ | _ | _, log⟩ := got <;> exact h.trans hstop
    | subscribe service l => exact nomatch hq
    | unsubscribe service l => exact nomatch hq

end Remote.Client

end Discovery.Naming
