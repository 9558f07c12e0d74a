/-!
# Tables

A `Table α` maps finitely many texts to values and lists them in ascending order of the text.
The order is part of the type, so two tables with the same look-ups are the same table.

* `get?_insert`, `get?_erase`: what a look-up finds after a change.
* `mem_entries_iff`: the list of entries says the same as the look-ups.
* `ext_get?`: a table is determined by its look-ups.
-/

namespace Discovery

/-- A finite map from texts to values, listed in ascending order of the texts. -/
structure Table (α : Type) where
  entries : List (String × α)
  sorted : entries.Pairwise fun a b => a.1 < b.1

namespace Table

variable {α β : Type}

/-! ## Lists of entries -/

/-- Puts an entry at its place, in the stead of one with the same key. -/
def insertEntry (k : String) (v : α) : List (String × α) → List (String × α)
  | [] => [(k, v)]
  | e :: r =>
    if k < e.1 then (k, v) :: e :: r
    else if k = e.1 then (k, v) :: r
    else e :: insertEntry k v r

theorem mem_insertEntry {k : String} {v : α} {l : List (String × α)} {x : String × α}
    (h : x ∈ insertEntry k v l) : x = (k, v) ∨ x ∈ l := by
  induction l with
  | nil => simpa [insertEntry] using h
  | cons e r ih =>
    unfold insertEntry at h
    split at h
    · simpa using h
    · split at h
      · rcases List.mem_cons.1 h with h | h
        · exact .inl h
        · exact .inr (List.mem_cons_of_mem _ h)
      · rcases List.mem_cons.1 h with h | h
        · exact .inr (h ▸ List.mem_cons_self)
        · exact (ih h).imp id (List.mem_cons_of_mem _)

theorem eq_of_not_lt {a b : String} (h : ¬ a < b) (h' : ¬ b < a) : a = b :=
  String.le_antisymm (String.not_lt.1 h') (String.not_lt.1 h)

theorem pairwise_insertEntry {k : String} {v : α} {l : List (String × α)}
    (h : l.Pairwise fun a b => a.1 < b.1) :
    (insertEntry k v l).Pairwise fun a b => a.1 < b.1 := by
  induction l with
  | nil => simp [insertEntry]
  | cons e r ih =>
    obtain ⟨he, hr⟩ := List.pairwise_cons.1 h
    unfold insertEntry
    split
    · next hk =>
      refine List.pairwise_cons.2 ⟨fun x hx => ?_, h⟩
      rcases List.mem_cons.1 hx with rfl | hx
      · exact hk
      · exact String.lt_trans hk (he x hx)
    · next hk =>
      split
      · next hke => exact List.pairwise_cons.2 ⟨fun x hx => hke ▸ he x hx, hr⟩
      · next hke =>
        refine List.pairwise_cons.2 ⟨fun x hx => ?_, ih hr⟩
        rcases mem_insertEntry hx with rfl | hx
        · exact Decidable.byContradiction fun hn => hke (eq_of_not_lt hk hn)
        · exact he x hx

/-! ## Operations -/

def empty : Table α := ⟨[], .nil⟩

instance : EmptyCollection (Table α) := ⟨empty⟩
instance : Inhabited (Table α) := ⟨empty⟩

def get? (t : Table α) (k : String) : Option α :=
  t.entries.lookup k

def getD (t : Table α) (k : String) (v : α) : α :=
  (t.get? k).getD v

def contains (t : Table α) (k : String) : Bool :=
  (t.get? k).isSome

def insert (t : Table α) (k : String) (v : α) : Table α :=
  ⟨insertEntry k v t.entries, pairwise_insertEntry t.sorted⟩

def erase (t : Table α) (k : String) : Table α :=
  ⟨t.entries.filter (·.1 != k), t.sorted.filter _⟩

/-- The table with the value at `k`, if there is one, changed by `f`. -/
def modify (t : Table α) (k : String) (f : α → α) : Table α :=
  match t.get? k with
  | some v => t.insert k (f v)
  | none => t

def filterMap (f : String → α → Option β) (t : Table α) : Table β where
  entries := t.entries.filterMap fun e => (f e.1 e.2).map (e.1, ·)
  sorted := by
    refine List.Pairwise.filterMap _ (fun a b hab c hc d hd => ?_) t.sorted
    obtain ⟨_, _, rfl⟩ := Option.map_eq_some_iff.1 hc
    obtain ⟨_, _, rfl⟩ := Option.map_eq_some_iff.1 hd
    exact hab

def filter (p : String → α → Bool) (t : Table α) : Table α :=
  ⟨t.entries.filter fun e => p e.1 e.2, t.sorted.filter _⟩

/-- The keys, in ascending order. -/
def keys (t : Table α) : List String :=
  t.entries.map (·.1)

def values (t : Table α) : List α :=
  t.entries.map (·.2)

def size (t : Table α) : Nat :=
  t.entries.length

def isEmpty (t : Table α) : Bool :=
  t.entries.isEmpty

/-- The first entry whose key is `k` or above it. -/
def from? (t : Table α) (k : String) : Option (String × α) :=
  (t.entries.dropWhile fun e => decide (e.1 < k)).head?

/-- The table of a list of pairs, where a later pair replaces an earlier one of its key. -/
def ofList (l : List (String × α)) : Table α :=
  l.foldl (fun t e => t.insert e.1 e.2) empty

instance [BEq α] : BEq (Table α) := ⟨fun a b => a.entries == b.entries⟩

instance [DecidableEq α] : DecidableEq (Table α) := fun a b =>
  decidable_of_iff (a.entries = b.entries)
    ⟨fun h => by cases a; cases b; cases h; rfl, fun h => h ▸ rfl⟩

instance [Repr α] : Repr (Table α) := ⟨fun t n => reprPrec t.entries n⟩

/-! ## Look-ups -/

theorem lookup_eq_some_iff {l : List (String × α)} (h : l.Pairwise fun a b => a.1 < b.1)
    {k : String} {v : α} : l.lookup k = some v ↔ (k, v) ∈ l := by
  induction l with
  | nil => simp
  | cons e r ih =>
    obtain ⟨he, hr⟩ := List.pairwise_cons.1 h
    obtain ⟨a, b⟩ := e
    rw [List.lookup_cons, List.mem_cons]
    by_cases hk : k = a
    · subst hk
      simp only [beq_self_eq_true, Option.some.injEq, Prod.mk.injEq, true_and]
      refine ⟨fun h => .inl h.symm, fun h => h.elim Eq.symm fun h => ?_⟩
      exact absurd (he _ h) (String.lt_irrefl _)
    · rw [beq_eq_false_iff_ne.2 hk]
      simp [hk, ih hr]

theorem mem_entries_iff {t : Table α} {k : String} {v : α} :
    (k, v) ∈ t.entries ↔ t.get? k = some v :=
  (lookup_eq_some_iff t.sorted).symm

theorem mem_keys_iff {t : Table α} {k : String} : k ∈ t.keys ↔ t.contains k = true := by
  simp only [keys, List.mem_map, contains, Option.isSome_iff_exists, ← mem_entries_iff]
  exact ⟨fun ⟨e, he, hk⟩ => ⟨e.2, hk ▸ he⟩, fun ⟨v, hv⟩ => ⟨(k, v), hv, rfl⟩⟩

theorem mem_insertEntry_iff {k : String} {v : α} {l : List (String × α)}
    (h : l.Pairwise fun a b => a.1 < b.1) {x : String × α} :
    x ∈ insertEntry k v l ↔ x = (k, v) ∨ (x ∈ l ∧ x.1 ≠ k) := by
  induction l with
  | nil => simp [insertEntry]
  | cons e r ih =>
    obtain ⟨he, hr⟩ := List.pairwise_cons.1 h
    have below : k < e.1 → ∀ y ∈ e :: r, y.1 ≠ k := by
      intro hk y hy hyk
      rcases List.mem_cons.1 hy with rfl | hy
      · exact String.lt_irrefl _ (hyk ▸ hk)
      · exact String.lt_irrefl _ (String.lt_trans hk (hyk ▸ he y hy))
    unfold insertEntry
    split
    · next hk =>
      rw [List.mem_cons]
      exact or_congr_right ⟨fun hx => ⟨hx, below hk x hx⟩, And.left⟩
    · split
      · next hke =>
        rw [List.mem_cons, List.mem_cons]
        refine or_congr_right ⟨fun hx => ⟨.inr hx, fun hxk => ?_⟩, fun hx => ?_⟩
        · exact String.lt_irrefl e.1 ((hxk.trans hke) ▸ he x hx)
        · exact hx.1.resolve_left fun hxe => hx.2 (hxe ▸ hke.symm)
      · next hke =>
        rw [List.mem_cons, List.mem_cons, ih hr]
        constructor
        · rintro (rfl | rfl | ⟨hx, hxk⟩)
          · exact .inr ⟨.inl rfl, fun h => hke h.symm⟩
          · exact .inl rfl
          · exact .inr ⟨.inr hx, hxk⟩
        · rintro (rfl | ⟨rfl | hx, hxk⟩)
          · exact .inr (.inl rfl)
          · exact .inl rfl
          · exact .inr (.inr ⟨hx, hxk⟩)

@[simp] theorem get?_empty (k : String) : (∅ : Table α).get? k = none := rfl

theorem get?_insert (t : Table α) (k : String) (v : α) (k' : String) :
    (t.insert k v).get? k' = if k' = k then some v else t.get? k' := by
  have key : ∀ w, (t.insert k v).get? k' = some w ↔
      (if k' = k then some v else t.get? k') = some w := by
    intro w
    rw [← mem_entries_iff]
    show (k', w) ∈ insertEntry k v t.entries ↔ _
    rw [mem_insertEntry_iff t.sorted]
    by_cases hk : k' = k
    · simp [hk, eq_comm]
    · simp [hk, mem_entries_iff]
  exact Option.ext key

@[simp] theorem get?_insert_self (t : Table α) (k : String) (v : α) :
    (t.insert k v).get? k = some v := by
  simp [get?_insert]

theorem get?_insert_of_ne (t : Table α) {k k' : String} (v : α) (h : k' ≠ k) :
    (t.insert k v).get? k' = t.get? k' := by
  simp [get?_insert, h]

theorem get?_erase (t : Table α) (k k' : String) :
    (t.erase k).get? k' = if k' = k then none else t.get? k' := by
  refine Option.ext fun w => ?_
  rw [← mem_entries_iff]
  show (k', w) ∈ t.entries.filter (·.1 != k) ↔ _
  rw [List.mem_filter, mem_entries_iff]
  by_cases hk : k' = k <;> simp [hk]

@[simp] theorem get?_erase_self (t : Table α) (k : String) : (t.erase k).get? k = none := by
  simp [get?_erase]

theorem get?_erase_of_ne (t : Table α) {k k' : String} (h : k' ≠ k) :
    (t.erase k).get? k' = t.get? k' := by
  simp [get?_erase, h]

theorem get?_filterMap (f : String → α → Option β) (t : Table α) (k : String) :
    (t.filterMap f).get? k = (t.get? k).bind (f k) := by
  refine Option.ext fun w => ?_
  rw [← mem_entries_iff]
  show (k, w) ∈ t.entries.filterMap _ ↔ _
  simp only [List.mem_filterMap, Option.map_eq_some_iff, Option.bind_eq_some_iff, Prod.mk.injEq]
  constructor
  · rintro ⟨⟨k', v⟩, he, w', hw, rfl, rfl⟩
    exact ⟨v, mem_entries_iff.1 he, hw⟩
  · rintro ⟨v, hv, hw⟩
    exact ⟨(k, v), mem_entries_iff.2 hv, w, hw, rfl, rfl⟩

theorem get?_filter (p : String → α → Bool) (t : Table α) (k : String) :
    (t.filter p).get? k = (t.get? k).filter (p k) := by
  refine Option.ext fun w => ?_
  rw [← mem_entries_iff]
  show (k, w) ∈ t.entries.filter _ ↔ _
  rw [List.mem_filter, mem_entries_iff, Option.filter_eq_some_iff]

/-! ## Equality -/

theorem entries_ext {l m : List (String × α)} (hl : l.Pairwise fun a b => a.1 < b.1)
    (hm : m.Pairwise fun a b => a.1 < b.1) (h : ∀ x, x ∈ l ↔ x ∈ m) : l = m := by
  induction l generalizing m with
  | nil => exact (List.eq_nil_iff_forall_not_mem.2 fun x hx => nomatch (h x).2 hx).symm
  | cons a l ih =>
    obtain ⟨ha, hl'⟩ := List.pairwise_cons.1 hl
    cases m with
    | nil => exact nomatch (h a).1 List.mem_cons_self
    | cons b m =>
      obtain ⟨hb, hm'⟩ := List.pairwise_cons.1 hm
      have hab : a = b := by
        rcases List.mem_cons.1 ((h a).1 List.mem_cons_self) with e | ham
        · exact e
        rcases List.mem_cons.1 ((h b).2 List.mem_cons_self) with e | hbl
        · exact e.symm
        exact absurd (String.lt_trans (ha b hbl) (hb a ham)) (String.lt_irrefl _)
      subst hab
      refine congrArg (a :: ·) (ih hl' hm' fun x => ⟨fun hx => ?_, fun hx => ?_⟩)
      · rcases List.mem_cons.1 ((h x).1 (List.mem_cons_of_mem _ hx)) with rfl | hx'
        · exact absurd (ha x hx) (String.lt_irrefl _)
        · exact hx'
      · rcases List.mem_cons.1 ((h x).2 (List.mem_cons_of_mem _ hx)) with rfl | hx'
        · exact absurd (hb x hx) (String.lt_irrefl _)
        · exact hx'

theorem ext_get? {t u : Table α} (h : ∀ k, t.get? k = u.get? k) : t = u := by
  have he : t.entries = u.entries :=
    entries_ext t.sorted u.sorted fun ⟨k, v⟩ => by rw [mem_entries_iff, mem_entries_iff, h k]
  cases t; cases u; cases he; rfl

theorem nodup_keys (t : Table α) : t.keys.Nodup :=
  List.pairwise_map.2 (t.sorted.imp fun {a b} h (he : a.1 = b.1) =>
    String.lt_irrefl a.1 (Eq.subst (motive := fun k => a.1 < k) he.symm h))

end Table

end Discovery
