import Discovery.Naming.Group
import Mathlib.Data.List.Infix

/-!
# Services behind their groups

A service is found behind the first separator of its name on the wire.  That is the one between the
group and the service, unless the group has a separator of its own, or ends with the first half of
one, which then pairs with the first half of the separator behind it.

* `behind?_eq_some_iff`: what stands behind the first separator.
* `separated_concat_iff`: where a separator comes up in a text that half of one follows.
* `strip_join_eq_iff`: the groups behind which every service is found again.
-/

namespace Discovery.Naming.Group

def Separated (cs : List Char) : Prop :=
  ['@', '@'] <:+: cs

theorem separated_cons_iff {c : Char} {cs : List Char} :
    Separated (c :: cs) ↔ c = '@' ∧ cs.head? = some '@' ∨ Separated cs := by
  unfold Separated
  rw [List.infix_cons_iff, List.cons_prefix_cons]
  refine or_congr_left (and_congr eq_comm ?_)
  cases cs with
  | nil => simp
  | cons b cs => simp [eq_comm]

theorem not_separated_half : ¬ Separated ['@'] := by
  unfold Separated
  decide

/-- A separator comes up in a text that half of one follows if it is there before, or if the text
ends with the other half. -/
theorem separated_concat_iff {cs : List Char} :
    Separated (cs ++ ['@']) ↔ Separated cs ∨ ['@'] <:+ cs := by
  induction cs with
  | nil => simpa [Separated] using not_separated_half
  | cons c cs ih =>
    rw [List.cons_append, separated_cons_iff, separated_cons_iff, ih, List.suffix_cons_iff]
    cases cs with
    | nil => simpa [Separated] using eq_comm
    | cons b cs => simp [or_assoc]

/-- **What stands behind the first separator**: in front of it, with its first half, there is
none. -/
theorem behind?_eq_some_iff {cs r : List Char} :
    behind? cs = some r ↔
      ∃ front, cs = front ++ '@' :: '@' :: r ∧ ¬ Separated (front ++ ['@']) := by
  induction cs with
  | nil => simp [behind?]
  | cons a cs ih =>
    cases cs with
    | nil =>
      refine ⟨nofun, ?_⟩
      rintro ⟨front, hcs, -⟩
      have hlen := congrArg List.length hcs
      simp at hlen
      omega
    | cons b cs =>
      -- the first character of what is left is that of the front, or the separator's
      have hhead : ∀ {front}, b :: cs = front ++ '@' :: '@' :: r →
          (front ++ ['@']).head? = some b := by
        intro front h
        cases front with
        | nil => exact congrArg some (List.cons.inj h).1.symm
        | cons c front => exact congrArg some (List.cons.inj h).1.symm
      unfold behind?
      split
      · next hab =>
        obtain ⟨rfl, rfl⟩ := hab
        constructor
        · intro h
          exact ⟨[], by rw [Option.some.inj h]; rfl, not_separated_half⟩
        · rintro ⟨front, hcs, hfirst⟩
          cases front with
          | nil => exact congrArg some (List.cons.inj (List.cons.inj hcs).2).2
          | cons c front =>
            obtain ⟨rfl, htail⟩ := List.cons.inj hcs
            exact absurd (separated_cons_iff.2 (.inl ⟨rfl, hhead htail⟩)) hfirst
      · next hab =>
        rw [ih]
        constructor
        · rintro ⟨front, hcs, hfirst⟩
          refine ⟨a :: front, congrArg _ hcs, fun h => ?_⟩
          rcases separated_cons_iff.1 h with ⟨ha, hb⟩ | h
          · exact hab ⟨ha, Option.some.inj ((hhead hcs).symm.trans hb)⟩
          · exact hfirst h
        · rintro ⟨front, hcs, hfirst⟩
          cases front with
          | nil =>
            obtain ⟨ha, hcs⟩ := List.cons.inj hcs
            exact absurd ⟨ha, (List.cons.inj hcs).1⟩ hab
          | cons c front =>
            exact ⟨front, (List.cons.inj hcs).2, fun h => hfirst (separated_cons_iff.2 (.inr h))⟩

theorem exists_behind? (g r : List Char) : ∃ x, behind? (g ++ '@' :: '@' :: r) = some x := by
  induction g with
  | nil => exact ⟨r, rfl⟩
  | cons a g ih =>
    obtain ⟨b, t, hbt⟩ : ∃ b t, g ++ '@' :: '@' :: r = b :: t := by
      cases g with
      | nil => exact ⟨_, _, rfl⟩
      | cons b g => exact ⟨_, _, rfl⟩
    rw [hbt] at ih
    rw [List.cons_append, hbt]
    unfold behind?
    split
    · exact ⟨t, rfl⟩
    · exact ih

theorem toList_join (service group : String) :
    (join service group).toList = group.toList ++ '@' :: '@' :: service.toList := by
  simp [join, String.toList_append]

/-- What is found behind a group is the service if it is behind the first separator. -/
theorem strip_join_eq_iff_behind {service group : String} :
    strip (join service group) = service ↔
      behind? (group.toList ++ '@' :: '@' :: service.toList) = some service.toList := by
  obtain ⟨x, hx⟩ := exists_behind? group.toList service.toList
  unfold strip
  rw [toList_join, hx, Option.some.injEq]
  dsimp only
  rw [← String.toList_inj, String.toList_ofList]

/-- **A service is found again behind a group exactly if the group neither holds a separator nor
ends with half of one**, whatever the service is called; so it is behind the group of services that
name none. -/
theorem strip_join_eq_iff :
    (∀ service group : String, strip (join service group) = service ↔
      ¬ "@@".toList <:+: group.toList ∧ ¬ "@".toList <:+ group.toList) ∧
    ∀ service : String, strip (join service default) = service := by
  have hiff : ∀ service group : String, strip (join service group) = service ↔
      ¬ "@@".toList <:+: group.toList ∧ ¬ "@".toList <:+ group.toList := by
    intro service group
    rw [strip_join_eq_iff_behind, behind?_eq_some_iff, ← not_or]
    have hconcat : Separated (group.toList ++ ['@']) ↔
        "@@".toList <:+: group.toList ∨ "@".toList <:+ group.toList := separated_concat_iff
    rw [← hconcat]
    constructor
    · rintro ⟨front, hcs, hfirst⟩
      rwa [List.append_cancel_right hcs]
    · exact fun hfirst => ⟨group.toList, rfl, hfirst⟩
  refine ⟨hiff, fun service => (hiff service default).2 ?_⟩
  decide

/-- A service whose name begins with half a separator and holds one. -/
example : strip (join "@a@@b" default) = "@a@@b" ∧ strip (join "a" "g@") = "@a" ∧
    strip (join "a" "g@@h") = "h@@a" := by
  decide

end Discovery.Naming.Group
