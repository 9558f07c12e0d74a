import Discovery.Settings.Load
import Mathlib.Data.List.Basic
import Mathlib.Data.List.Nodup
import Mathlib.Data.List.TakeWhile

/-!
# Layers of settings

Sources are laid over one another, one entry after the other, each at the path that its name stands
for.  An entry changes one property at most, unless its path leads to the properties as a whole.

* `prop`: what a value says about a property.
* `prop_put_of_not_whole`: what an entry does to a property.
* `prop_overlay_of_ne`: entries for other properties leave a property as it is.
* `settled_overlay`: a text that is not replaced stays, or something else is put below it.
* `props_of_settings?`: the settings have the texts among the properties.
-/

namespace Discovery.Settings.Value

variable {k k' f n key : String} {v t : Value} {es ps : List (String × Value)}
  {p steps : List Step} {s : Settings}

/-! ### Entries -/

theorem lookup_setEntry (k k' : String) (v : Value) (es : List (String × Value)) :
    (setEntry k v es).lookup k' = if k' = k then some v else es.lookup k' := by
  induction es with
  | nil =>
    by_cases h : k' = k
    · simp [setEntry, h]
    · simp [setEntry, List.lookup_cons, beq_eq_false_iff_ne.2 h, h]
  | cons e es ih =>
    obtain ⟨a, b⟩ := e
    unfold setEntry
    by_cases ha : a = k
    · subst ha
      rw [if_pos rfl]
      by_cases h : k' = a
      · simp [h]
      · simp [List.lookup_cons, beq_eq_false_iff_ne.2 h, h]
    · rw [if_neg ha, List.lookup_cons, List.lookup_cons, ih]
      by_cases h : k' = a
      · subst h
        simp only [beq_self_eq_true, if_neg ha]
      · rw [beq_eq_false_iff_ne.2 h]

theorem get_setEntry (k k' : String) (v : Value) (es : List (String × Value)) :
    get (setEntry k v es) k' = if k' = k then v else get es k' := by
  unfold get
  rw [lookup_setEntry]
  split <;> rfl

def names (es : List (String × Value)) : List String :=
  es.map (·.1)

theorem mem_names_setEntry : f ∈ names (setEntry k v es) ↔ f = k ∨ f ∈ names es := by
  induction es with
  | nil => simp [setEntry, names]
  | cons e es ih =>
    unfold setEntry
    split
    · next h => simp [names, h]
    · simp only [names, List.map_cons, List.mem_cons] at ih ⊢
      rw [ih]
      exact or_left_comm

theorem nodup_setEntry (h : (names es).Nodup) : (names (setEntry k v es)).Nodup := by
  induction es with
  | nil => simp [setEntry, names]
  | cons e es ih =>
    obtain ⟨he, hes⟩ := List.nodup_cons.1 h
    unfold setEntry
    split
    · next hk => exact List.nodup_cons.2 ⟨hk ▸ he, hes⟩
    · next hk =>
      refine List.nodup_cons.2 ⟨fun hmem => ?_, ih hes⟩
      exact (mem_names_setEntry.1 hmem).elim hk he

theorem nodup_layAll (h : (names ps).Nodup) : (names (layAll es ps)).Nodup := by
  induction es generalizing ps with
  | nil =>
    unfold layAll
    exact h
  | cons e es ih =>
    unfold layAll
    exact ih (nodup_setEntry h)

/-! ### Properties -/

def props (t : Value) : List (String × Value) :=
  (get t.entries "props").entries

def prop (t : Value) (f : String) : Value :=
  get t.props f

theorem props_put_of_ne (hn : n ≠ "props") : (put v (.entry n :: steps) t).props = t.props := by
  unfold props
  rw [put, entries, get_setEntry, if_neg hn.symm]

theorem props_put (v : Value) (steps : List Step) (t : Value) :
    (put v (.entry "props" :: steps) t).props = (put v steps (get t.entries "props")).entries := by
  unfold props
  rw [put, entries, get_setEntry, if_pos rfl]

/-- **What a property is** after an entry was laid over it or beside it. -/
theorem prop_put (v : Value) (k : String) (steps : List Step) (t : Value) (f : String) :
    (put v (.entry "props" :: .entry k :: steps) t).prop f =
      if f = k then put v steps (t.prop k) else t.prop f := by
  unfold prop
  rw [props_put, put, entries, get_setEntry]
  rfl

theorem nodup_put (h : (names t.entries).Nodup) : (names (put v p t).entries).Nodup := by
  unfold put
  split
  · unfold layOver
    split
    · exact nodup_layAll h
    · next hno =>
      cases v with
      | table es => exact absurd rfl (hno es)
      | nil | text | list => exact List.nodup_nil
  · exact nodup_setEntry h
  · exact List.nodup_nil

theorem nodup_props_put (h : (names t.props).Nodup) :
    (names (put v (.entry n :: steps) t).props).Nodup := by
  by_cases hn : n = "props"
  · rw [hn, props_put]
    exact nodup_put h
  · rw [props_put_of_ne hn]
    exact h

/-! ### Paths -/

theorem stepsFrom?_point (fuel : Nat) (cs : List Char) : stepsFrom? (fuel + 1) ('.' :: cs) =
    if (cs.takeWhile isNameChar).isEmpty then none
    else (stepsFrom? fuel (cs.dropWhile isNameChar)).map
      (.entry (String.ofList (cs.takeWhile isNameChar)) :: ·) := by
  rw [stepsFrom?]

theorem exists_of_stepsFrom? {fuel : Nat} {cs : List Char}
    (h : stepsFrom? fuel cs = some (.entry f :: steps)) :
    ∃ fuel' cs', fuel = fuel' + 1 ∧ cs = '.' :: cs' ∧ f.toList = cs'.takeWhile isNameChar ∧
      stepsFrom? fuel' (cs'.dropWhile isNameChar) = some steps := by
  unfold stepsFrom? at h
  split at h
  · exact nomatch h
  · exact nomatch h
  · next fuel' cs' =>
    dsimp only at h
    split at h
    · exact nomatch h
    · obtain ⟨rest, hrest, hcons⟩ := Option.map_eq_some_iff.1 h
      obtain ⟨hname, rfl⟩ := List.cons.inj hcons
      refine ⟨fuel', cs', rfl, rfl, ?_, hrest⟩
      rw [← Step.entry.inj hname, String.toList_ofList]
  · next fuel' cs' =>
    obtain ⟨rest, -, hmap⟩ := Option.bind_eq_some_iff.1 h
    obtain ⟨_, -, hcons⟩ := Option.map_eq_some_iff.1 hmap
    exact nomatch (List.cons.inj hcons).1
  · exact nomatch h

theorem exists_path (key : String) : ∃ n steps, path key = .entry n :: steps := by
  unfold path
  cases h : stepsFrom? (key.length + 2) ('.' :: key.toList) with
  | none => exact ⟨key, [], rfl⟩
  | some p =>
    rw [stepsFrom?_point] at h
    split at h
    · exact nomatch h
    · obtain ⟨rest, -, rfl⟩ := Option.map_eq_some_iff.1 h
      exact ⟨_, _, rfl⟩

/-- The name behind the first one in a path consists of characters of the text that may stand in a
name. -/
theorem mem_of_path (h : path key = .entry n :: .entry f :: steps) :
    ∀ c ∈ f.toList, c ∈ key.toList ∧ isNameChar c = true := by
  unfold path at h
  cases hp : stepsFrom? (key.length + 2) ('.' :: key.toList) with
  | none =>
    rw [hp] at h
    exact nomatch h
  | some p =>
    rw [hp] at h
    obtain rfl : p = _ := h
    obtain ⟨fuel, cs, -, hcs, -, hrest⟩ := exists_of_stepsFrom? hp
    obtain rfl := (List.cons.inj hcs).2
    obtain ⟨-, cs', -, hdrop, hf, -⟩ := exists_of_stepsFrom? hrest
    intro c hc
    rw [hf] at hc
    have hmem : c ∈ cs' := (List.takeWhile_sublist _).mem hc
    have hbehind : c ∈ key.toList.dropWhile isNameChar := hdrop ▸ List.mem_cons_of_mem _ hmem
    exact ⟨(List.dropWhile_sublist _).mem hbehind, List.mem_takeWhile_imp hc⟩

theorem stepsFrom?_name (fuel : Nat) {cs : List Char} (rest : List Char) (hne : cs ≠ [])
    (hcs : ∀ c ∈ cs, isNameChar c = true) (hrest : rest.head?.all (fun c => !isNameChar c) = true) :
    stepsFrom? (fuel + 1) ('.' :: (cs ++ rest)) =
      (stepsFrom? fuel rest).map (.entry (String.ofList cs) :: ·) := by
  have htake : (cs ++ rest).takeWhile isNameChar = cs := by
    rw [List.takeWhile_append_of_pos hcs]
    cases rest with
    | nil => simp
    | cons c rest => simp_all
  have hdrop : (cs ++ rest).dropWhile isNameChar = rest := by
    rw [List.dropWhile_append_of_pos hcs]
    cases rest with
    | nil => simp
    | cons c rest => simp_all
  rw [stepsFrom?_point, htake, hdrop, if_neg (by simpa using hne)]

/-- **Two names with a point between them** lead to an entry of a table. -/
theorem path_pair {cs ds : List Char} (hcs : cs ≠ []) (hcs' : ∀ c ∈ cs, isNameChar c = true)
    (hds : ds ≠ []) (hds' : ∀ c ∈ ds, isNameChar c = true) :
    path (String.ofList (cs ++ '.' :: ds)) =
      [.entry (String.ofList cs), .entry (String.ofList ds)] := by
  have hlast : ∀ fuel, stepsFrom? (fuel + 2) ('.' :: ds) = some [.entry (String.ofList ds)] := by
    intro fuel
    have h := stepsFrom?_name (fuel + 1) [] hds hds' rfl
    rw [List.append_nil] at h
    exact h
  unfold path
  rw [String.toList_ofList, String.length_ofList, List.length_append, List.length_cons]
  have hfuel : cs.length + (ds.length + 1) + 2 = (cs.length + ds.length) + 2 + 1 := by omega
  rw [hfuel, stepsFrom?_name _ _ hcs hcs' rfl, hlast]
  rfl

/-! ### Laying a source over a value -/

theorem overlay_cons (e : String × Value) (es : List (String × Value)) (t : Value) :
    overlay (e :: es) t = overlay es (put e.2 (path e.1) t) :=
  rfl

theorem overlay_append (es es' : List (String × Value)) (t : Value) :
    overlay (es ++ es') t = overlay es' (overlay es t) :=
  List.foldl_append

theorem nodup_props_overlay (h : (names t.props).Nodup) : (names (overlay es t).props).Nodup := by
  induction es generalizing t with
  | nil => exact h
  | cons e es ih =>
    obtain ⟨n, steps, hp⟩ := exists_path e.1
    rw [overlay_cons, hp]
    exact ih (nodup_props_put h)

/-- Whether a path leads to the properties as a whole. -/
def Whole : List Step → Prop
  | [.entry "props"] => True
  | .entry "props" :: .item :: _ => True
  | _ => False

/-- Whether what is put at a path takes the place of the property `f`. -/
def Replaces (f : String) (p : List Step) : Prop :=
  Whole p ∨ p = [.entry "props", .entry f]

/-- **What an entry does to a property**: nothing, if its path does not lead there. -/
theorem prop_put_of_not_whole (hp : ¬ Whole (.entry n :: steps)) (v t : Value) (f : String) :
    (put v (.entry n :: steps) t).prop f = t.prop f ∨
      ∃ more, n = "props" ∧ steps = .entry f :: more ∧
        (put v (.entry n :: steps) t).prop f = put v more (t.prop f) := by
  by_cases hn : n = "props"
  · subst hn
    match steps, hp with
    | [], hp => exact absurd trivial hp
    | .item :: _, hp => exact absurd trivial hp
    | .entry k :: more, _ =>
      rw [prop_put]
      by_cases hf : f = k
      · subst hf
        exact .inr ⟨more, rfl, rfl, if_pos rfl⟩
      · exact .inl (if_neg hf)
  · unfold prop
    rw [props_put_of_ne hn]
    exact .inl rfl

/-- **Entries for other properties** leave a property as it is. -/
theorem prop_overlay_of_ne (hwhole : ∀ e ∈ es, ¬ Whole (path e.1))
    (hne : ∀ e ∈ es, ∀ steps, path e.1 ≠ .entry "props" :: .entry f :: steps) :
    (overlay es t).prop f = t.prop f := by
  induction es generalizing t with
  | nil => rfl
  | cons e es ih =>
    obtain ⟨he, hes⟩ := List.forall_mem_cons.1 hwhole
    obtain ⟨hne', hnes⟩ := List.forall_mem_cons.1 hne
    rw [overlay_cons, ih hes hnes]
    obtain ⟨n, steps, hp⟩ := exists_path e.1
    rw [hp] at he hne' ⊢
    rcases prop_put_of_not_whole he e.2 t f with h | ⟨more, rfl, rfl, -⟩
    · exact h
    · exact absurd rfl (hne' more)

/-- A value that is there and is no other text than `x`. -/
def Settled (x : String) (v : Value) : Prop :=
  v ≠ .nil ∧ ∀ y, v.text? = some y → y = x

theorem settled_text (x : String) : Settled x (.text x) :=
  ⟨nofun, fun _ h => (Option.some.inj h).symm⟩

theorem settled_put {x : String} {st : Step} (v : Value) (steps : List Step) (t : Value) :
    Settled x (put v (st :: steps) t) := by
  cases st <;> exact ⟨nofun, nofun⟩

/-- **A text that is not replaced stays**, or gives way to a table or a list. -/
theorem settled_overlay {x : String} (hrep : ∀ e ∈ es, ¬ Replaces f (path e.1))
    (h : Settled x (t.prop f)) : Settled x ((overlay es t).prop f) := by
  induction es generalizing t with
  | nil => exact h
  | cons e es ih =>
    obtain ⟨he, hes⟩ := List.forall_mem_cons.1 hrep
    rw [overlay_cons]
    refine ih hes ?_
    obtain ⟨n, steps, hp⟩ := exists_path e.1
    rw [hp] at he ⊢
    have hwhole : ¬ Whole (.entry n :: steps) := fun hw => he (.inl hw)
    rcases prop_put_of_not_whole hwhole e.2 t f with hkeep | ⟨more, rfl, rfl, hput⟩
    · rw [hkeep]
      exact h
    · cases more with
      | nil => exact absurd (.inr rfl) he
      | cons st more =>
        rw [hput]
        exact settled_put ..

/-! ### Reading settings -/

theorem get?_foldl_insert {α : Type} {l : List (String × α)} (t : Table α)
    (h : (l.map (·.1)).Nodup) :
    (l.foldl (fun t e => t.insert e.1 e.2) t).get? f = (l.lookup f).or (t.get? f) := by
  induction l generalizing t with
  | nil => simp
  | cons e l ih =>
    obtain ⟨a, b⟩ := e
    obtain ⟨ha, hl⟩ := List.nodup_cons.1 h
    rw [List.foldl_cons, ih _ hl, Table.get?_insert, List.lookup_cons]
    by_cases hf : f = a
    · subst hf
      have hnone : l.lookup f = none := by
        refine List.lookup_eq_none_iff.2 fun p hp => bne_iff_ne.2 fun heq => ha ?_
        exact heq ▸ List.mem_map.2 ⟨p, hp, rfl⟩
      simp [hnone]
    · simp [beq_eq_false_iff_ne.2 hf, hf]

theorem texts_of_mapM {texts : List (String × String)}
    (h : ps.mapM (fun p => p.2.text?.map (p.1, ·)) = some texts) :
    texts.map (·.1) = names ps ∧ texts.lookup f = (get ps f).text? ∧
      (get ps f ≠ .nil → (get ps f).text? ≠ none) := by
  induction ps generalizing texts with
  | nil =>
    cases h
    exact ⟨rfl, rfl, fun hne => absurd rfl hne⟩
  | cons e ps ih =>
    obtain ⟨a, b⟩ := e
    rw [List.mapM_cons] at h
    obtain ⟨x, hx, hrest⟩ := Option.bind_eq_some_iff.1 h
    obtain ⟨rest, hps, hcons⟩ := Option.bind_eq_some_iff.1 hrest
    obtain ⟨y, hy, rfl⟩ := Option.map_eq_some_iff.1 hx
    obtain rfl := Option.some.inj hcons
    dsimp only at hy
    obtain ⟨hnames, hlookup⟩ := ih hps
    refine ⟨congrArg (a :: ·) hnames, ?_⟩
    unfold get at hlookup ⊢
    rw [List.lookup_cons, List.lookup_cons]
    cases f == a with
    | true => exact ⟨hy.symm, fun _ => hy ▸ Option.some_ne_none y⟩
    | false => exact hlookup

/-- **The settings have the texts among the properties**, which are all texts. -/
theorem props_of_settings? (h : t.settings? = some s) (hnodup : (names t.props).Nodup) :
    s.props.get? f = (t.prop f).text? ∧ (t.prop f ≠ .nil → (t.prop f).text? ≠ none) := by
  unfold settings? at h
  obtain ⟨kind, -, h⟩ := Option.bind_eq_some_iff.1 h
  obtain ⟨servers, -, h⟩ := Option.bind_eq_some_iff.1 h
  obtain ⟨table, htable, h⟩ := Option.bind_eq_some_iff.1 h
  obtain rfl := Option.some.inj h
  unfold prop props get at *
  dsimp only
  unfold texts? at htable
  split at htable
  · next hnone =>
    obtain rfl := Option.some.inj htable
    rw [hnone]
    exact ⟨rfl, fun hne => absurd rfl hne⟩
  · next ps hps =>
    rw [hps] at hnodup ⊢
    obtain ⟨texts, htexts, hlist⟩ := Option.bind_eq_some_iff.1 htable
    obtain rfl := Option.some.inj hlist
    obtain ⟨hnames, hlookup, hall⟩ := texts_of_mapM (f := f) htexts
    refine ⟨?_, hall⟩
    change (List.foldl _ Table.empty texts).get? f = _
    rw [get?_foldl_insert _ (hnames ▸ hnodup), hlookup]
    exact Option.or_none
  · exact nomatch htable

end Discovery.Settings.Value
