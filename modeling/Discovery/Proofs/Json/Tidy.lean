import Discovery.Proofs.Json.Printed
import Discovery.Proofs.Json.Doubles

/-!
# Values as they are read

In a value that was read the members of each object are in ascending order of their names, and
arrays and objects are nested as deep as the reader allows at most.  Such a value is read again
from the draft that shows it, so printing and reading come back to the same value.

* `tidy_of_readAny`: what was read is tidy.
* `readAny_draft`: a tidy value is read from its draft.
* `decode_render`: a tidy value is read from its text.
-/

namespace Discovery

namespace Json

/-- A value that is nested so deep at most, and whose objects are in order. -/
inductive Tidy : Nat → Json → Prop
  | null (depth : Nat) : Tidy depth .null
  | bool (depth : Nat) (b : Bool) : Tidy depth (.bool b)
  | number (depth : Nat) (n : Number) : Tidy depth (.number n)
  | text (depth : Nat) (s : String) : Tidy depth (.text s)
  | array {depth : Nat} {js : List Json} (h : ∀ j ∈ js, Tidy depth j) : Tidy (depth + 1) (.array js)
  | object {depth : Nat} {ms : List (String × Json)} (hsorted : ms.Pairwise fun a b => a.1 < b.1)
      (h : ∀ m ∈ ms, Tidy depth m.2) : Tidy (depth + 1) (.object ms)

variable {depth : Nat} {d : Draft} {ds : List Draft} {j : Json} {js : List Json}
  {members : List (Option String × Draft)} {acc ms : List (String × Json)}

/-! ### What was read -/

theorem forall_of_readAnyItems {P : Json → Prop}
    (hread : ∀ d j, readAny depth d = .ok j → P j) (h : readAnyItems depth ds = .ok js) :
    ∀ j ∈ js, P j := by
  induction ds generalizing js with
  | nil =>
    obtain rfl := Except.ok.inj h
    exact nofun
  | cons d ds ih =>
    obtain ⟨j, hj, h⟩ := exists_of_bind h
    obtain ⟨js, hjs, h⟩ := exists_of_bind h
    obtain rfl := Except.ok.inj h
    exact List.forall_mem_cons.2 ⟨hread d j hj, ih hjs⟩

theorem forall_of_readAnyMembers {P : Json → Prop}
    (hread : ∀ d j, readAny depth d = .ok j → P j) (hacc : ∀ m ∈ acc, P m.2)
    (hsorted : acc.Pairwise fun a b => a.1 < b.1)
    (h : readAnyMembers depth members acc = .ok ms) :
    (∀ m ∈ ms, P m.2) ∧ ms.Pairwise fun a b => a.1 < b.1 := by
  induction members generalizing acc with
  | nil =>
    obtain rfl := Except.ok.inj h
    exact ⟨hacc, hsorted⟩
  | cons m members ih =>
    obtain ⟨none | k, d⟩ := m
    · exact nomatch h
    · obtain ⟨j, hj, h⟩ := exists_of_bind h
      refine ih ?_ (Table.pairwise_insertEntry hsorted) h
      intro m hm
      rcases Table.mem_insertEntry hm with rfl | hm
      · exact hread d j hj
      · exact hacc m hm

theorem closed_of_finish {tail : Tail} (h : tail.finish = .ok ()) : tail = .closed := by
  cases tail with
  | closed => rfl
  | cut afterComma b => exact nomatch h

/-- A value that was read has no parts, or its parts were read with one level less. -/
theorem readAny_cases (h : readAny depth d = .ok j) :
    (∀ n, j.Tidy n) ∨
    (∃ n items js, depth = n + 1 ∧ d = .array items .closed ∧ j = .array js ∧
      readAnyItems n items = .ok js) ∨
    ∃ n members ms, depth = n + 1 ∧ d = .object members .closed ∧ j = .object ms ∧
      readAnyMembers n members [] = .ok ms := by
  unfold readAny at h
  split at h
  · obtain rfl := Except.ok.inj h
    exact .inl .null
  · obtain rfl := Except.ok.inj h
    exact .inl fun n => .bool n _
  · obtain rfl := Except.ok.inj h
    exact .inl fun n => .number n _
  · obtain rfl := Except.ok.inj h
    exact .inl fun n => .text n _
  · exact nomatch h
  · exact nomatch h
  · obtain ⟨js, hjs, h⟩ := exists_of_bind h
    obtain ⟨⟨⟩, hfinish, h⟩ := exists_of_bind h
    obtain rfl := Except.ok.inj h
    obtain rfl := closed_of_finish hfinish
    exact .inr (.inl ⟨_, _, js, rfl, rfl, rfl, hjs⟩)
  · obtain ⟨ms, hms, h⟩ := exists_of_bind h
    obtain ⟨⟨⟩, hfinish, h⟩ := exists_of_bind h
    obtain rfl := Except.ok.inj h
    obtain rfl := closed_of_finish hfinish
    exact .inr (.inr ⟨_, _, ms, rfl, rfl, rfl, hms⟩)
  · exact nomatch h

/-- **What was read is tidy.**  The induction is on the levels that are left. -/
theorem tidy_of_readAny (h : readAny depth d = .ok j) : j.Tidy depth := by
  induction depth generalizing d j with
  | zero =>
    rcases readAny_cases h with h | ⟨_, _, _, hn, -⟩ | ⟨_, _, _, hn, -⟩
    · exact h 0
    · exact nomatch hn
    · exact nomatch hn
  | succ depth ih =>
    rcases readAny_cases h with h | ⟨_, _, js, ⟨⟩, rfl, rfl, hjs⟩ | ⟨_, _, ms, ⟨⟩, rfl, rfl, hms⟩
    · exact h _
    · exact .array (forall_of_readAnyItems (fun _ _ => ih) hjs)
    · obtain ⟨htidy, hsorted⟩ :=
        forall_of_readAnyMembers (fun _ _ => ih) (List.forall_mem_nil _) .nil hms
      exact .object hsorted htidy

theorem Tidy.mono (h : j.Tidy depth) : j.Tidy (depth + 1) := by
  induction h with
  | null => exact .null _
  | bool => exact .bool _ _
  | number => exact .number _ _
  | text => exact .text _ _
  | array _ ih => exact .array ih
  | object hsorted _ ih => exact .object hsorted ih

/-! ### What is shown -/

theorem readAnyItems_itemDrafts (h : ∀ j ∈ js, readAny depth j.draft = .ok j) :
    readAnyItems depth (itemDrafts js) = .ok js := by
  induction js with
  | nil => rfl
  | cons j js ih =>
    obtain ⟨hj, hjs⟩ := List.forall_mem_cons.1 h
    rw [itemDrafts, readAnyItems, hj, ih hjs]
    rfl

theorem insertEntry_of_lt {k : String} (h : ∀ m ∈ acc, m.1 < k) :
    Table.insertEntry k j acc = acc ++ [(k, j)] := by
  induction acc with
  | nil => rfl
  | cons m acc ih =>
    obtain ⟨hm, hacc⟩ := List.forall_mem_cons.1 h
    have hbelow : ¬ k < m.1 := fun hk => String.lt_irrefl _ (String.lt_trans hk hm)
    have hne : k ≠ m.1 := fun hk => String.lt_irrefl _ (hk ▸ hm)
    rw [Table.insertEntry, if_neg hbelow, if_neg hne, ih hacc, List.cons_append]

theorem readAnyMembers_memberDrafts (acc : List (String × Json))
    (h : ∀ m ∈ ms, readAny depth m.2.draft = .ok m.2)
    (hsorted : (acc ++ ms).Pairwise fun a b => a.1 < b.1) :
    readAnyMembers depth (memberDrafts ms) acc = .ok (acc ++ ms) := by
  induction ms generalizing acc with
  | nil => rw [memberDrafts, readAnyMembers, List.append_nil]
  | cons m ms ih =>
    obtain ⟨hm, hms⟩ := List.forall_mem_cons.1 h
    obtain ⟨k, j⟩ := m
    have hbelow : ∀ m ∈ acc, m.1 < k :=
      fun m hmem => (List.pairwise_append.1 hsorted).2.2 m hmem (k, j) List.mem_cons_self
    rw [List.append_cons] at hsorted ⊢
    have hrest := ih _ hms hsorted
    rw [memberDrafts, readAnyMembers, hm]
    show readAnyMembers depth (memberDrafts ms) (Table.insertEntry k j acc) = _
    rw [insertEntry_of_lt hbelow, hrest]

/-- **A tidy value is read from the draft that shows it.** -/
theorem readAny_draft (h : j.Tidy depth) : readAny depth j.draft = .ok j := by
  induction h with
  | null => rw [draft, readAny]
  | bool => rw [draft, readAny]
  | number => rw [draft, readAny]
  | text => rw [draft, readAny]
  | array _ ih =>
    rw [draft, readAny, readAnyItems_itemDrafts ih]
    rfl
  | object hsorted _ ih =>
    rw [draft, readAny, readAnyMembers_memberDrafts [] ih hsorted]
    rfl

theorem decode_eq_ok_iff {α : Type} {reader : Reader α} {bs : Bytes} {x : α} :
    decode reader bs = .ok x ↔
      ∃ d r, Draft.ofBytes bs = (d, some r) ∧ skipBlanks r = [] ∧ reader maxDepth d = .ok x := by
  unfold decode
  obtain ⟨d, rest⟩ := Draft.ofBytes bs
  constructor
  · intro h
    obtain ⟨y, hy, h⟩ := exists_of_bind h
    cases rest with
    | none => exact nomatch h
    | some r =>
      dsimp only at h
      split at h
      · next hr =>
        obtain rfl := Except.ok.inj h
        exact ⟨d, r, rfl, List.isEmpty_iff.1 hr, hy⟩
      · exact nomatch h
  · rintro ⟨_, r, ⟨⟩, hr, hread⟩
    show (reader maxDepth d >>= _) = _
    rw [hread]
    show (if (skipBlanks r).isEmpty = true then _ else _) = _
    rw [hr]
    rfl

/-- **A tidy value of integers is read back from its text.** -/
theorem decode_render (hexact : j.IsExact) (htidy : j.Tidy maxDepth) :
    decode readAny (Bytes.ofText j.render) = .ok j :=
  decode_eq_ok_iff.2 ⟨_, _, ofBytes_render hexact, rfl, readAny_draft htidy⟩

end Json

end Discovery
