import Discovery.Registry.Nodes

/-!
# Calls come to an end

Each time a call gets what it needs it comes closer to its end: the bound on the steps that it
still takes goes down (`stepsLeft_resume`).
-/

namespace Discovery.Registry.Nodes

open Discovery.Tree (Reply)

def Call.Fits (c : Call) : Signal Reply → Prop
  | .admitted => ∃ ticket, c.need = .turn ticket
  | .answered _ => ∃ q, c.need = .ask q
  | .handed => ∃ key a data, c.need = .hand key a data

variable {r : Nodes} {p : Publication} {c d : Call} {n : Nat}

/-- A step after which at most `n` steps are left, if the call is not over. -/
def Within (n : Nat) (s : Step Nodes Call) : Prop :=
  ∀ c, s.call = some c → c.stepsLeft ≤ n

theorem within_goOn (h : c.stepsLeft ≤ n) : Within n (r.goOn c) :=
  fun _ hc => Option.some.inj hc ▸ h

theorem within_finish : Within n r.finish :=
  fun _ hc => nomatch hc

theorem within_fail {operation name : String} {why : Failure} :
    Within n (r.fail operation name why) :=
  fun _ hc => nomatch hc

theorem within_depart {v : Visit} {s : Step Nodes Call} (h : Within n s) : Within n (depart v s) :=
  h

theorem within_buildUp : ∀ {missing : List String}, missing.length + 1 ≤ n →
    Within n (r.buildUp p missing)
  | [], h => within_goOn h
  | _ :: _, h => within_goOn h

theorem within_climbUp : ∀ {above missing : List String},
    above.length * 2 + missing.length + 2 ≤ n → Within n (r.climbUp p above missing)
  | [], missing, h => within_buildUp (by rw [List.length_nil] at h; omega)
  | here :: above, missing, h => by
    refine within_goOn ?_
    rw [List.length_cons] at h
    show above.length * 2 + missing.length + 4 ≤ n
    omega

theorem within_answered (hneed : ∃ q, c.need = .ask q) (reply : Reply) :
    Within (c.stepsLeft - 1) (r.answered c reply) := by
  cases c with
  | checkLeaf p =>
    have hclimb : Within ((Call.checkLeaf p).stepsLeft - 1)
        (r.climbUp p (Tree.Path.ancestors p.path) []) :=
      within_climbUp (by simp only [Call.stepsLeft, List.length_nil]; omega)
    cases reply with
    | failed e => exact within_fail
    | present there =>
      cases there with
      | true => exact within_goOn (Nat.le_refl _)
      | false => exact hclimb
    | _ => exact hclimb
  | clearLeaf p =>
    have hclimb : Within ((Call.clearLeaf p).stepsLeft - 1)
        (r.climbUp p (Tree.Path.ancestors p.path) []) :=
      within_climbUp (by simp only [Call.stepsLeft, List.length_nil]; omega)
    cases reply with
    | failed e => cases e <;> first | exact hclimb | exact within_fail
    | _ => exact hclimb
  | climb p here above missing =>
    have hclimb : Within ((Call.climb p here above missing).stepsLeft - 1)
        (r.climbUp p above (here :: missing)) :=
      within_climbUp (by simp only [Call.stepsLeft, List.length_cons]; omega)
    cases reply with
    | failed e => exact within_fail
    | present there =>
      cases there with
      | true => exact within_buildUp (by simp only [Call.stepsLeft]; omega)
      | false => exact hclimb
    | _ => exact hclimb
  | build p here rest =>
    have hbuild : Within ((Call.build p here rest).stepsLeft - 1) (r.buildUp p rest) :=
      within_buildUp (by simp only [Call.stepsLeft]; omega)
    cases reply with
    | failed e => cases e <;> first | exact hbuild | exact within_fail
    | _ => exact hbuild
  | putLeaf p => cases reply <;> first | exact within_fail | exact within_finish
  | findLeaf name path =>
    cases reply with
    | failed e => exact within_fail
    | present there =>
      cases there with
      | true => exact within_goOn (Nat.le_refl _)
      | false => exact within_finish
    | _ => exact within_finish
  | removeLeaf name path =>
    cases reply with
    | failed e => cases e <;> first | exact within_finish | exact within_fail
    | _ => exact within_finish
  | watch v l =>
    cases reply with
    | failed e => exact within_depart within_fail
    | _ => exact within_goOn (Nat.le_refl _)
  | read v =>
    cases reply with
    | failed e => exact within_depart within_fail
    | found data =>
      cases data with
      | none => exact within_depart within_finish
      | some bytes =>
        unfold answered
        dsimp only
        cases Payload.decode bytes with
        | ok data => exact within_goOn (Nat.le_refl _)
        | error e => exact within_depart fun _ hc => nomatch hc
    | _ => exact within_depart within_finish
  | unwatch v l =>
    cases reply with
    | failed e => exact within_depart within_fail
    | _ => exact within_depart within_finish
  | enter v | enterOut v | hand v data =>
    obtain ⟨q, hq⟩ := hneed
    exact nomatch hq

theorem within_admitted (hneed : ∃ ticket, c.need = .turn ticket) :
    Within (c.stepsLeft - 1) (r.admitted c) := by
  obtain ⟨ticket, hneed⟩ := hneed
  cases c with
  | enter v => exact within_goOn (Nat.le_refl _)
  | enterOut v =>
    unfold admitted Core.forgetListener
    dsimp only
    split
    · exact within_depart within_finish
    · cases (r.core.detach v).listeners.get? v.key with
      | none => exact within_depart within_finish
      | some i => exact within_goOn (Nat.le_refl _)
  | _ => exact nomatch hneed

/-- **Each step takes a call closer to its end.** -/
theorem stepsLeft_resume {signal : Signal Reply} (h : c.Fits signal)
    (hd : (r.resume c signal).call = some d) : d.stepsLeft < c.stepsLeft := by
  have hpos : 0 < c.stepsLeft := by
    cases c <;> exact Nat.succ_pos _
  have hle : d.stepsLeft ≤ c.stepsLeft - 1 := by
    cases signal with
    | admitted => exact within_admitted h d hd
    | answered reply => exact within_answered h reply d hd
    | handed =>
      obtain ⟨key, a, data, hneed⟩ := h
      cases c with
      | hand v data => exact nomatch hd
      | _ => exact nomatch hneed
  omega

end Discovery.Registry.Nodes
