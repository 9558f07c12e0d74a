import Discovery.Payload
import Discovery.Proofs.Json.Tidy

/-!
# Payloads and their bytes

The bytes that are stored for a payload are read back to the same payload, in whichever order its
members are written.  A node may also hold an object that was written elsewhere: a text in it is
handed on as it is, and any other value as a text that can be read again.

* `Payload.decode_ofEntries`: the members may be written in any order.
* `Payload.decoded_members`: what is handed on for each member of an object.
-/

namespace Discovery

namespace Table

variable {α : Type} {l : List (String × α)} {k : String} {v : α}

theorem get?_foldl_insert (l : List (String × α)) (t : Table α) (k : String) :
    (l.foldl (fun t e => t.insert e.1 e.2) t).get? k = (l.reverse.lookup k).or (t.get? k) := by
  induction l generalizing t with
  | nil => rfl
  | cons e l ih =>
    rw [List.foldl_cons, ih, List.reverse_cons, List.lookup_append, Option.or_assoc, get?_insert]
    by_cases hk : k = e.1
    · rw [if_pos hk, List.lookup_cons, beq_iff_eq.2 hk]
      rfl
    · rw [if_neg hk, List.lookup_cons, beq_eq_false_iff_ne.2 hk]
      rfl

theorem mem_of_lookup (h : l.lookup k = some v) : (k, v) ∈ l := by
  obtain ⟨l₁, l₂, rfl, -⟩ := List.lookup_eq_some_iff.1 h
  exact List.mem_append_right _ List.mem_cons_self

theorem lookup_eq_some_iff_of_nodup (h : (l.map (·.1)).Nodup) :
    l.lookup k = some v ↔ (k, v) ∈ l := by
  induction l with
  | nil => simp
  | cons e l ih =>
    rw [List.map_cons, List.nodup_cons] at h
    rw [List.lookup_cons, List.mem_cons]
    by_cases hk : k = e.1
    · have hnot : (k, v) ∉ l := fun hmem => h.1 (hk ▸ List.mem_map_of_mem hmem)
      rw [beq_iff_eq.2 hk, Option.some.injEq]
      simp only [hnot, or_false, Prod.ext_iff]
      exact ⟨fun hv => ⟨hk, hv.symm⟩, fun hkv => hkv.2.symm⟩
    · rw [beq_eq_false_iff_ne.2 hk]
      simp only [Prod.ext_iff, hk, false_and, false_or, ih h.2]

theorem foldl_insert_of_perm {t : Table α} (h : l.Perm t.entries) :
    l.foldl (fun t e => t.insert e.1 e.2) ∅ = t := by
  refine ext_get? fun k => ?_
  have hkeys : (l.reverse.map (·.1)).Nodup :=
    (((List.reverse_perm l).trans h).map _).nodup_iff.2 t.nodup_keys
  refine Option.ext fun v => ?_
  rw [get?_foldl_insert, get?_empty, Option.or_none, lookup_eq_some_iff_of_nodup hkeys,
    List.mem_reverse, h.mem_iff, mem_entries_iff]

end Table

namespace Json

variable {depth : Nat} {d : Draft} {members : List (Option String × Draft)} {t u : Table Json}
  {bs : Bytes} {ms : List (String × Json)}

/-- What a member of an object is read to. -/
def IsMember (depth : Nat) (m : Option String × Draft) (e : String × Json) : Prop :=
  m.1 = some e.1 ∧ readAny depth m.2 = .ok e.2

/-- A text is an object with these members, which are listed as they stand there. -/
def IsObject (bs : Bytes) (ms : List (String × Json)) : Prop :=
  ∃ members r, Draft.ofBytes bs = (.object members .closed, some r) ∧ skipBlanks r = [] ∧
    List.Forall₂ (IsMember (maxDepth - 1)) members ms

theorem foldMembers_insert_iff :
    foldMembers (fun t k d => do return t.insert k (← readAny depth d)) members t = .ok u ↔
      ∃ ms, List.Forall₂ (IsMember depth) members ms ∧
        ms.foldl (fun t e => t.insert e.1 e.2) t = u := by
  induction members generalizing t with
  | nil =>
    constructor
    · intro h
      exact ⟨[], .nil, Except.ok.inj h⟩
    · rintro ⟨_, ⟨⟩, rfl⟩
      rfl
  | cons m members ih =>
    obtain ⟨name, d⟩ := m
    constructor
    · intro h
      cases name with
      | none => exact nomatch h
      | some k =>
        obtain ⟨s, hs, h⟩ := exists_of_bind h
        obtain ⟨j, hj, hs⟩ := exists_of_bind hs
        obtain rfl := Except.ok.inj hs
        obtain ⟨ms, hms, hu⟩ := ih.1 h
        exact ⟨(k, j) :: ms, .cons ⟨rfl, hj⟩ hms, hu⟩
    · rintro ⟨_, hall, hu⟩
      cases hall with
      | @cons _ e _ ms he hms =>
      obtain ⟨hname, hj⟩ := he
      obtain rfl : name = some e.1 := hname
      rw [foldMembers, hj]
      exact ih.2 ⟨_, hms, hu⟩

theorem readTable_eq_ok_iff :
    readTable readAny (depth + 1) d = .ok t ↔
      ∃ members, d = .object members .closed ∧
        foldMembers (fun t k d => do return t.insert k (← readAny depth d)) members ∅ = .ok t := by
  constructor
  · intro h
    unfold readTable at h
    split at h
    · next hdepth => exact nomatch hdepth
    · next members tail hdepth =>
      obtain ⟨u, hu, h⟩ := exists_of_bind h
      obtain ⟨⟨⟩, hfinish, h⟩ := exists_of_bind h
      obtain rfl := Except.ok.inj h
      obtain rfl := closed_of_finish hfinish
      obtain rfl := Nat.succ.inj hdepth
      exact ⟨members, rfl, hu⟩
    · exact nomatch h
  · rintro ⟨members, rfl, h⟩
    rw [readTable, h]
    rfl

/-- **A table of any values is read from an object**, of whose members the last of each name
counts. -/
theorem decode_readTable_iff :
    decode (readTable readAny) bs = .ok t ↔
      ∃ ms, IsObject bs ms ∧ ms.foldl (fun t e => t.insert e.1 e.2) ∅ = t := by
  have hdepth : maxDepth = maxDepth - 1 + 1 := rfl
  rw [decode_eq_ok_iff]
  constructor
  · rintro ⟨d, r, hdraft, hr, hread⟩
    rw [hdepth] at hread
    obtain ⟨members, rfl, hfold⟩ := readTable_eq_ok_iff.1 hread
    obtain ⟨ms, hms, ht⟩ := foldMembers_insert_iff.1 hfold
    exact ⟨ms, ⟨members, r, hdraft, hr, hms⟩, ht⟩
  · rintro ⟨ms, ⟨members, r, hdraft, hr, hms⟩, ht⟩
    refine ⟨_, r, hdraft, hr, ?_⟩
    rw [hdepth]
    exact readTable_eq_ok_iff.2 ⟨members, rfl, foldMembers_insert_iff.2 ⟨ms, hms, ht⟩⟩

theorem isObject_render (hms : ∀ m ∈ ms, m.2.IsExact ∧ m.2.Tidy (maxDepth - 1)) :
    IsObject (Bytes.ofText (Json.object ms).render) ms := by
  refine ⟨memberDrafts ms, [], ofBytes_render (.object fun m hm => (hms m hm).1), rfl, ?_⟩
  induction ms with
  | nil => exact .nil
  | cons m ms ih =>
    obtain ⟨⟨-, htidy⟩, hms⟩ := List.forall_mem_cons.1 hms
    exact .cons ⟨rfl, readAny_draft htidy⟩ (ih hms)

theorem IsObject.tidy {m : String × Json} (h : IsObject bs ms) (hm : m ∈ ms) :
    m.2.Tidy (maxDepth - 1) := by
  obtain ⟨members, r, -, -, hall⟩ := h
  induction hall with
  | nil => exact nomatch hm
  | cons hread _ ih =>
    rcases List.mem_cons.1 hm with rfl | hm
    · exact tidy_of_readAny hread.2
    · exact ih hm

end Json

namespace Payload

open Json

variable {p : Payload} {bs : Bytes}

theorem decode_eq_of_isObject {ms : List (String × Json)} (h : IsObject bs ms) :
    decode bs = .ok ((ms.foldl (fun t e => t.insert e.1 e.2) ∅ : Table Json).filterMap
      fun _ j => some (textOf j)) := by
  have hne : bs.isEmpty = false := by
    obtain ⟨members, r, hdraft, -⟩ := h
    cases bs with
    | nil => exact nomatch hdraft
    | cons b bs => rfl
  rw [decode, hne, if_neg nofun, decode_readTable_iff.2 ⟨ms, h, rfl⟩]
  rfl

/-- **A payload is read back from its bytes**, in whichever order its members are written. -/
theorem decode_ofEntries {l : List (String × String)} (h : l.Perm p.entries) :
    decode (Bytes.ofText (Json.object (l.map fun e => (e.1, .text e.2))).render) = .ok p := by
  have htexts : ∀ m ∈ l.map fun e => (e.1, Json.text e.2),
      m.2.IsExact ∧ m.2.Tidy (maxDepth - 1) := by
    intro m hm
    obtain ⟨e, -, rfl⟩ := List.mem_map.1 hm
    exact ⟨.text _, .text _ _⟩
  -- the table of what is written
  let t : Table Json := p.filterMap fun _ s => some (.text s)
  have hentries : (l.map fun e => (e.1, Json.text e.2)).Perm t.entries := by
    have hmap : t.entries = p.entries.map fun e => (e.1, Json.text e.2) :=
      congrFun List.filterMap_eq_map' p.entries
    rw [hmap]
    exact h.map _
  rw [decode_eq_of_isObject (isObject_render htexts), Table.foldl_insert_of_perm hentries]
  refine congrArg Except.ok (Table.ext_get? fun k => ?_)
  rw [Table.get?_filterMap, Table.get?_filterMap]
  cases p.get? k <;> rfl

/-- **A payload is read as it was written.** -/
theorem decode_encode (p : Payload) : decode p.encode = .ok p :=
  decode_ofEntries (.refl _)

/-- **What is handed on for the members of an object**: of each name the last one counts.  A text
is handed on as it is, and any other value as its compact text, from which it can be read again if
its numbers are integers. -/
theorem decoded_members {p : Payload} (hne : bs ≠ []) (h : decode bs = .ok p) :
    ∃ ms, IsObject bs ms ∧ ∀ k,
      (ms.reverse.lookup k = none → p.get? k = none) ∧
      (∀ s, ms.reverse.lookup k = some (.text s) → p.get? k = some s) ∧
      ∀ j, ms.reverse.lookup k = some j → (∀ s, j ≠ .text s) →
        p.get? k = some j.render ∧
          (j.IsExact → Json.decode readAny (Bytes.ofText j.render) = .ok j) := by
  have hempty : bs.isEmpty = false := List.isEmpty_eq_false_iff.2 hne
  rw [decode, hempty, if_neg nofun] at h
  obtain ⟨t, ht, rfl⟩ := exists_of_map h
  obtain ⟨ms, hms, rfl⟩ := decode_readTable_iff.1 ht
  refine ⟨ms, hms, fun k => ?_⟩
  rw [Table.get?_filterMap, Table.get?_foldl_insert, Table.get?_empty, Option.or_none]
  refine ⟨fun hk => by rw [hk]; rfl, fun s hk => by rw [hk]; rfl, fun j hk htext => ⟨?_, ?_⟩⟩
  · rw [hk]
    cases j with
    | text s => exact absurd rfl (htext s)
    | _ => rfl
  · intro hexact
    have hmem : (k, j) ∈ ms := List.mem_reverse.1 (Table.mem_of_lookup hk)
    exact decode_render hexact (hms.tidy hmem).mono

/-- An object in which a name stands twice and one value is no text. -/
def mixed : Bytes :=
  Bytes.ofText "\x7b\"ip\":1,\"port\": [4331, -1],\"ip\":\"127.0.0.1\"\x7d"

theorem decoded_members_mixed :
    mixed ≠ [] ∧ decode mixed = .ok (.ofList [("ip", "127.0.0.1"), ("port", "[4331,-1]")]) ∧
    ∃ ms, IsObject mixed ms ∧ ∀ j, ms.reverse.lookup "port" = some j → (∀ s, j ≠ .text s) →
      j.IsExact → Json.decode readAny (Bytes.ofText j.render) = .ok j := by
  have hne : mixed ≠ [] := by decide +kernel
  have hdecode : decode mixed = .ok (.ofList [("ip", "127.0.0.1"), ("port", "[4331,-1]")]) := by
    decide +kernel
  obtain ⟨ms, hms, hvalues⟩ := decoded_members hne hdecode
  exact ⟨hne, hdecode, ms, hms, fun j hj htext hexact => ((hvalues "port").2.2 j hj htext).2 hexact⟩

end Payload

end Discovery
