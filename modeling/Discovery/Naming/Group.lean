/-!
# Groups of services

On the wire a service name stands behind the name of its group, with `@@` between them.

* `strip_join`: the name of a service is found again behind its group.
-/

namespace Discovery.Naming.Group

/-- The group of a service that names none. -/
def default : String := "DEFAULT_GROUP"

/-- A service name behind its group. -/
def join (service group : String) : String :=
  group ++ "@@" ++ service

/-- What stands behind the first `@@`. -/
def behind? : List Char → Option (List Char)
  | [] => none
  | [_] => none
  | a :: b :: r => if a = '@' ∧ b = '@' then some r else behind? (b :: r)

def strip (service : String) : String :=
  match behind? service.toList with
  | some r => String.ofList r
  | none => service

theorem behind?_append {g r : List Char} (hg : '@' ∉ g) :
    behind? (g ++ '@' :: '@' :: r) = some r := by
  induction g with
  | nil => rfl
  | cons c g ih =>
    obtain ⟨hc, hg⟩ := List.ne_and_not_mem_of_not_mem_cons hg
    have hskip : ∀ {b : Char} {t : List Char}, behind? (c :: b :: t) = behind? (b :: t) :=
      fun {b t} => if_neg fun h => hc h.1.symm
    cases g with
    | nil => exact hskip
    | cons b g => exact hskip.trans (ih hg)

/-- **A service is found again behind its group**, also when it contains the separator itself. -/
theorem strip_join (service : String) {group : String} (hg : '@' ∉ group.toList) :
    strip (join service group) = service := by
  have hbehind : behind? (join service group).toList = some service.toList := by
    unfold join
    rw [String.toList_append, String.toList_append, List.append_assoc]
    exact behind?_append hg
  unfold strip
  rw [hbehind]
  exact String.ofList_toList

end Discovery.Naming.Group
