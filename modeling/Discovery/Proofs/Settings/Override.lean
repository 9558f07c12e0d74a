import Discovery.Proofs.Settings.Layers

/-!
# What the environment overrides

The environment comes after the file, but the names of its variables arrive in small letters, and a
property is looked up as it is written first.  So a variable takes the place of what the file says
under the name in small letters; what the file says under another spelling stays beside it, and is
what a look-up under that spelling finds.

* `path_of_names_iff`: where the variable for a property leads.
* `settled_of_only`: the property in small letters is what the variable says.
* `prop_of_spelling`: other spellings are what the file says.
* `overridden_of_only`: what look-ups of the property find.
* `file_wins`: a file and a variable, and a look-up that finds what the file says.
-/

namespace Discovery.Settings

open Value

variable {a b f key name value x : String} {n : String} {steps p : List Step} {c : Char}
  {cs : List Char} {e : String × Value} {environment : Table String} {file : Option File}
  {s : Settings} {t : Value}

/-! ### Small letters -/

theorem toLower_cases (c : Char) :
    c.toLower = c ∨ 65 ≤ c.val ∧ c.val ≤ 90 ∧ c.toLower.val = c.val + 32 := by
  delta Char.toLower
  split
  · next h => exact .inr ⟨h.1, h.2, rfl⟩
  · exact .inl rfl

theorem toLower_toLower (c : Char) : c.toLower.toLower = c.toLower := by
  rcases toLower_cases c with h | ⟨hlo, hhi, hval⟩
  · rw [h, h]
  · rcases toLower_cases c.toLower with h | ⟨hlo', hhi', -⟩
    · exact h
    · grind

theorem isNameChar_toLower (h : isNameChar c = true) : isNameChar c.toLower = true := by
  rcases toLower_cases c with hsame | ⟨hlo, hhi, hval⟩
  · rw [hsame]
    exact h
  · have hbounds : 97 ≤ c.toLower.val ∧ c.toLower.val ≤ 122 := by grind
    have hlower : c.toLower.isLower = true :=
      Bool.and_eq_true_iff.2 ⟨decide_eq_true hbounds.1, decide_eq_true hbounds.2⟩
    show ((c.toLower.isUpper || c.toLower.isLower) || _ || _ || _) = true
    rw [hlower, Bool.or_true]
    rfl

theorem isNameChar_of_toLower (h : isNameChar c.toLower = true) : isNameChar c = true := by
  rcases toLower_cases c with hsame | ⟨hlo, hhi, -⟩
  · rwa [hsame] at h
  · have hupper : c.isUpper = true := decide_eq_true ⟨hlo, hhi⟩
    show ((c.isUpper || c.isLower) || _ || _ || _) = true
    rw [hupper]
    rfl

theorem eq_underscore_of_toLower (h : c.toLower = '_') : c = '_' := by
  rcases toLower_cases c with hsame | ⟨hlo, hhi, hval⟩
  · exact hsame.symm.trans h
  · rw [h] at hval
    have hunder : (95 : UInt32) = c.val + 32 := hval
    grind

def lowered (s : String) : String :=
  String.ofList (s.toList.map Char.toLower)

theorem sameIgnoringCase_iff : sameIgnoringCase a b = true ↔ lowered a = lowered b := by
  unfold sameIgnoringCase lowered
  rw [beq_iff_eq]
  exact ⟨fun h => congrArg _ h, fun h => by simpa using congrArg String.toList h⟩

theorem lowered_lowered (a : String) : lowered (lowered a) = lowered a := by
  unfold lowered
  rw [String.toList_ofList, List.map_map]
  exact congrArg _ (List.map_congr_left fun c _ => toLower_toLower c)

/-! ### Variables -/

namespace Environment

theorem toLower_small (c : Char) : (small c).toLower = small c := by
  unfold small
  split
  · decide
  · exact toLower_toLower c

theorem mem_of_pointed (h : c ∈ pointed cs) : c = '.' ∨ c ∈ cs := by
  fun_induction pointed cs <;> grind

theorem pointed_of_no_separator (h : ∀ as bs, cs ≠ as ++ '_' :: '_' :: bs) : pointed cs = cs := by
  fun_induction pointed cs with
  | case1 => rfl
  | case2 => rfl
  | case3 a b r hsep ih =>
    obtain ⟨rfl, rfl⟩ := hsep
    exact absurd rfl (h [] r)
  | case4 a b r _ ih =>
    rw [ih fun as bs heq => h (a :: as) bs (congrArg _ heq)]

def setting? (name : String) : Option String :=
  let cs := name.toList.map small
  if start.isPrefixOf cs then some (String.ofList (pointed (cs.drop start.length))) else none

theorem entry?_eq (name value : String) :
    entry? name value = (setting? name).map (·, .text value) := by
  unfold entry? setting?
  dsimp only
  split <;> rfl

def path? (name : String) : Option (List Step) :=
  (setting? name).map path

/-- The names that a variable leads to are in small letters, but for the first one. -/
theorem lowered_of_path? (h : path? name = some (.entry n :: .entry f :: steps)) :
    lowered f = f := by
  obtain ⟨k, hk, hp⟩ := Option.map_eq_some_iff.1 h
  unfold setting? at hk
  dsimp only at hk
  split at hk
  · obtain rfl := Option.some.inj hk
    have hmem := mem_of_path hp
    have hsmall : f.toList.map Char.toLower = f.toList.map id := by
      refine List.map_congr_left fun c hc => ?_
      have hin := (hmem c hc).1
      rw [String.toList_ofList] at hin
      rcases mem_of_pointed hin with rfl | hin
      · decide
      · obtain ⟨d, -, rfl⟩ := List.mem_map.1 (List.mem_of_mem_drop hin)
        exact toLower_small d
    unfold lowered
    rw [hsmall, List.map_id, String.ofList_toList]
  · exact nomatch hk

/-- The variable for a property: `BATATA_REGISTRY__PROPS__` and the name of the property behind it,
in any case. -/
def Names (name key : String) : Prop :=
  name.toList.map small = start ++ ("props__".toList ++ key.toList.map Char.toLower)

/-- **Where the variable for a property leads**: to the property in small letters, if all of its
name may stand in a path, and else not there. -/
theorem path_of_names_iff (hkey : key ≠ "")
    (hsep : ∀ as bs, key.toList ≠ as ++ '_' :: '_' :: bs) (h : Names name key) :
    path? name = some [.entry "props", .entry (lowered key)] ↔
      ∀ c ∈ key.toList, isNameChar c = true := by
  constructor
  · intro hpath c hc
    obtain ⟨k, -, hp⟩ := Option.map_eq_some_iff.1 hpath
    have hmem : c.toLower ∈ (lowered key).toList := by
      unfold lowered
      rw [String.toList_ofList]
      exact List.mem_map_of_mem hc
    exact isNameChar_of_toLower (mem_of_path hp _ hmem).2
  intro hchars
  have hpointed : pointed (key.toList.map Char.toLower) = key.toList.map Char.toLower := by
    refine pointed_of_no_separator fun as bs heq => ?_
    obtain ⟨ks, ls, hls, -, hbs⟩ := List.map_eq_append_iff.1 heq
    obtain ⟨c, ms, rfl, hc, hms⟩ := List.map_eq_cons_iff.1 hbs
    obtain ⟨d, ns, rfl, hd, -⟩ := List.map_eq_cons_iff.1 hms
    exact hsep ks ns (by rw [hls, eq_underscore_of_toLower hc, eq_underscore_of_toLower hd])
  have hsplit : pointed ("props__".toList ++ key.toList.map Char.toLower) =
      "props".toList ++ '.' :: key.toList.map Char.toLower :=
    congrArg ("props".toList ++ '.' :: ·) hpointed
  have hne : key.toList.map Char.toLower ≠ [] := by simpa using hkey
  have hlower : ∀ c ∈ key.toList.map Char.toLower, isNameChar c = true := by
    intro c hc
    obtain ⟨d, hd, rfl⟩ := List.mem_map.1 hc
    exact isNameChar_toLower (hchars d hd)
  unfold path? setting?
  dsimp only
  rw [h, if_pos (List.isPrefixOf_iff_prefix.2 (List.prefix_append ..)), List.drop_left, hsplit,
    Option.map_some]
  have hprops : ∀ c ∈ "props".toList, isNameChar c = true := List.all_eq_true.1 rfl
  exact congrArg some (path_pair (by decide) hprops hne hlower)

theorem exists_variable {vs : List (String × String)}
    (h : e ∈ vs.filterMap fun v => entry? v.1 v.2) : ∃ v ∈ vs, path? v.1 = some (path e.1) := by
  obtain ⟨v, hv, he⟩ := List.mem_filterMap.1 h
  rw [entry?_eq] at he
  obtain ⟨k, hk, rfl⟩ := Option.map_eq_some_iff.1 he
  exact ⟨v, hv, congrArg _ hk⟩

end Environment

/-! ### One variable for a property -/

/-- A name of a property: there are no two underscores side by side in it, and nothing that is not
part of a name. -/
structure PropName (key : String) : Prop where
  ne : key ≠ ""
  chars : ∀ c ∈ key.toList, isNameChar c = true
  plain : ∀ as bs, key.toList ≠ as ++ '_' :: '_' :: bs

/-- In the environment one variable is for a property, and no other variable replaces it or all
properties. -/
structure OnlyVariable (environment : Table String) (key name x : String) : Prop where
  names : Environment.Names name key
  value : environment.get? name = some x
  only : ∀ other ∈ environment.keys, other ≠ name → ∀ p, Environment.path? other = some p →
    ¬ Replaces (lowered key) p

theorem OnlyVariable.path_eq (h : OnlyVariable environment key name x) (hkey : PropName key) :
    Environment.path? name = some [.entry "props", .entry (lowered key)] :=
  (Environment.path_of_names_iff hkey.ne hkey.plain h.names).2 hkey.chars

/-- **The property in small letters is what the variable says**, unless something is put below
it. -/
theorem settled_of_only (hkey : PropName key) (h : OnlyVariable environment key name x)
    (t : Value) :
    Settled x ((overlay (Environment.entries environment) t).prop (lowered key)) := by
  obtain ⟨as, bs, hsplit⟩ := List.append_of_mem (Table.mem_entries_iff.2 h.value)
  obtain ⟨k, hk, hpath⟩ := Option.map_eq_some_iff.1 (h.path_eq hkey)
  have hentry : Environment.entry? name x = some (k, .text x) := by
    rw [Environment.entry?_eq, hk]
    rfl
  have hhead : ((name, x) :: bs).filterMap (fun v => Environment.entry? v.1 v.2) =
      (k, .text x) :: bs.filterMap fun v => Environment.entry? v.1 v.2 := by
    rw [List.filterMap_cons, hentry]
  have hlater : ∀ v ∈ bs, v.1 ≠ name := by
    have hsorted := environment.sorted
    rw [hsplit] at hsorted
    intro v hv heq
    have hlt := (List.pairwise_cons.1 (List.pairwise_append.1 hsorted).2.1).1 v hv
    exact String.lt_irrefl name (heq ▸ hlt)
  unfold Environment.entries
  rw [hsplit, List.filterMap_append, hhead, overlay_append, overlay_cons, hpath]
  refine settled_overlay ?_ ?_
  · intro e he
    obtain ⟨v, hv, hp⟩ := Environment.exists_variable he
    have hmem : v ∈ environment.entries := by
      rw [hsplit]
      exact List.mem_append_right _ (List.mem_cons_of_mem _ hv)
    exact h.only v.1 (List.mem_map.2 ⟨v, hmem, rfl⟩) (hlater v hv) _ hp
  · rw [prop_put, if_pos rfl]
    exact settled_text x

/-- **Under another spelling there is what the file says.** -/
theorem prop_of_spelling (hkey : PropName key) (h : OnlyVariable environment key name x)
    (hf : sameIgnoringCase f key = true) (hne : f ≠ lowered key) (t : Value) :
    (overlay (Environment.entries environment) t).prop f = t.prop f := by
  have hsmall : lowered f ≠ f := by
    rw [sameIgnoringCase_iff.1 hf]
    exact hne.symm
  refine prop_overlay_of_ne ?_ ?_
  · intro e he
    obtain ⟨v, hv, hp⟩ := Environment.exists_variable he
    by_cases hother : v.1 = name
    · rw [hother, h.path_eq hkey] at hp
      rw [← Option.some.inj hp]
      exact not_false
    · have hmem : v.1 ∈ environment.keys := List.mem_map.2 ⟨v, hv, rfl⟩
      exact fun hwhole => h.only v.1 hmem hother _ hp (.inl hwhole)
  · intro e he steps heq
    obtain ⟨v, -, hp⟩ := Environment.exists_variable he
    rw [heq] at hp
    exact hsmall (Environment.lowered_of_path? hp)

/-! ### Looking up -/

theorem prop?_of_get? (h : s.props.get? f = some value) : s.prop? f = some value := by
  unfold prop?
  rw [h]

/-- A look-up finds something if there is a spelling, and it finds the value of one. -/
theorem exists_of_prop? {q : String} (h : s.props.get? f = some value)
    (hf : sameIgnoringCase f q = true) :
    ∃ f' v, sameIgnoringCase f' q = true ∧ s.props.get? f' = some v ∧ s.prop? q = some v := by
  unfold prop?
  cases hq : s.props.get? q with
  | some v => exact ⟨q, v, sameIgnoringCase_iff.2 rfl, hq, rfl⟩
  | none =>
    dsimp only
    cases hfind : s.props.entries.find? fun e => sameIgnoringCase e.1 q with
    | none =>
      have hno := List.find?_eq_none.1 hfind _ (Table.mem_entries_iff.2 h)
      exact absurd hf hno
    | some e =>
      have hsame := List.find?_some hfind
      exact ⟨e.1, e.2, hsame, Table.mem_entries_iff.1 (List.mem_of_find?_eq_some hfind), rfl⟩

/-! ### Loading -/

/-- What a file says, as one value. -/
def fileValue? (file : Option File) : Option Value :=
  (match file with
    | some f => f.entries?
    | none => some []).map fun es => overlay es (.table [])

/-- Whether a file says that the property is `value`, under just this spelling. -/
def Says (file : Option File) (spelling value : String) : Prop :=
  ∃ t, fileValue? file = some t ∧ (t.prop spelling).text? = some value

theorem exists_of_load (h : load file environment = .ok s) :
    ∃ t, fileValue? file = some t ∧ (names t.props).Nodup ∧
      (overlay (Environment.entries environment) t).settings? = some s := by
  unfold load at h
  split at h
  · exact nomatch h
  · next s' hread =>
    split at h
    · exact nomatch h
    · obtain rfl := Except.ok.inj h
      unfold read? at hread
      cases file with
      | none =>
        exact ⟨_, rfl, nodup_props_overlay List.nodup_nil, hread⟩
      | some f =>
        obtain ⟨es, hes, hsettings⟩ := Option.bind_eq_some_iff.1 hread
        exact ⟨_, Option.map_eq_some_iff.2 ⟨es, hes, rfl⟩, nodup_props_overlay List.nodup_nil,
          hsettings⟩

/-- What look-ups of a property find for which there is one variable. -/
structure Overridden (file : Option File) (s : Settings) (key x : String) : Prop where
  /-- In small letters it is what the variable says. -/
  lower : s.prop? (lowered key) = some x
  /-- Another spelling for which the file has a value finds that. -/
  spelled : ∀ f v, sameIgnoringCase f key = true → f ≠ lowered key → Says file f v →
    s.prop? f = some v
  /-- Any spelling finds one of these values. -/
  found : ∀ q, sameIgnoringCase q key = true → ∃ v, s.prop? q = some v ∧
    (v = x ∨ ∃ f, sameIgnoringCase f key = true ∧ f ≠ lowered key ∧ Says file f v)

/-- **What look-ups of a property find** for which there is one variable: what the variable says, or
what the file says under another spelling.  If the file has no other spelling, all look-ups find
what the variable says. -/
theorem overridden_of_only (hkey : PropName key) (hvar : OnlyVariable environment key name x)
    (hload : load file environment = .ok s) :
    Overridden file s key x ∧
      ((∀ f v, sameIgnoringCase f key = true → f ≠ lowered key → ¬ Says file f v) →
        ∀ q, sameIgnoringCase q key = true → s.prop? q = some x) := by
  obtain ⟨t, hfile, hnodup, hsettings⟩ := exists_of_load hload
  have hprops := fun f => props_of_settings? (f := f) hsettings (nodup_props_overlay hnodup)
  have hlower : s.props.get? (lowered key) = some x := by
    obtain ⟨hget, htext⟩ := hprops (lowered key)
    obtain ⟨hne, hall⟩ := settled_of_only hkey hvar t
    obtain ⟨y, hy⟩ := Option.ne_none_iff_exists'.1 (htext hne)
    rw [hget, hy, hall y hy]
  have hspelled : ∀ f, sameIgnoringCase f key = true → f ≠ lowered key →
      s.props.get? f = (t.prop f).text? := by
    intro f hf hne
    rw [(hprops f).1, prop_of_spelling hkey hvar hf hne]
  have hsays : ∀ f v, sameIgnoringCase f key = true → s.props.get? f = some v →
      v = x ∨ f ≠ lowered key ∧ Says file f v := by
    intro f v hf hv
    by_cases hne : f = lowered key
    · rw [hne, hlower] at hv
      exact .inl (Option.some.inj hv).symm
    · exact .inr ⟨hne, t, hfile, (hspelled f hf hne).symm.trans hv⟩
  have hfound : ∀ q, sameIgnoringCase q key = true → ∃ v, s.prop? q = some v ∧
      (v = x ∨ ∃ f, sameIgnoringCase f key = true ∧ f ≠ lowered key ∧ Says file f v) := by
    intro q hq
    have hlq : sameIgnoringCase (lowered key) q = true := by
      rw [sameIgnoringCase_iff, lowered_lowered]
      exact (sameIgnoringCase_iff.1 hq).symm
    obtain ⟨f, v, hf, hfv, hprop⟩ := exists_of_prop? hlower hlq
    have hfkey : sameIgnoringCase f key = true :=
      sameIgnoringCase_iff.2 ((sameIgnoringCase_iff.1 hf).trans (sameIgnoringCase_iff.1 hq))
    rcases hsays f v hfkey hfv with hv | ⟨hne, hv⟩
    · exact ⟨v, hprop, .inl hv⟩
    · exact ⟨v, hprop, .inr ⟨f, hfkey, hne, hv⟩⟩
  refine ⟨⟨prop?_of_get? hlower, ?_, hfound⟩, ?_⟩
  · intro f v hf hne hv
    obtain ⟨t', ht', htext⟩ := hv
    obtain rfl := Option.some.inj (hfile.symm.trans ht')
    exact prop?_of_get? ((hspelled f hf hne).trans htext)
  · intro hnone q hq
    obtain ⟨v, hprop, rfl | ⟨f, hf, hne, hv⟩⟩ := hfound q hq
    · exact hprop
    · exact absurd hv (hnone f v hf hne)

/-! ### A file and a variable -/

/-- A file that spells a property with a capital. -/
def timeoutFile : File where
  extension := "json"
  text := some
    "\x7b\"server_lists\":\"a:2181\",\"props\":\x7b\"sessionTimeout\":\"30000\"\x7d\x7d"

def timeoutVariable : Table String :=
  (∅ : Table String).insert "BATATA_REGISTRY__PROPS__SESSIONTIMEOUT" "5"

def twoTimeouts : Settings where
  kind := ""
  servers := "a:2181"
  props := ((∅ : Table String).insert "sessionTimeout" "30000").insert "sessiontimeout" "5"

theorem load_twoTimeouts : load (some timeoutFile) timeoutVariable = .ok twoTimeouts := by
  decide +kernel

theorem onlyVariable_sessionTimeout : OnlyVariable timeoutVariable "sessionTimeout"
    "BATATA_REGISTRY__PROPS__SESSIONTIMEOUT" "5" where
  names := by
    unfold Environment.Names
    decide
  value := by decide
  only := by
    intro other hmem hne
    have hkeys : timeoutVariable.keys = ["BATATA_REGISTRY__PROPS__SESSIONTIMEOUT"] := by decide
    rw [hkeys] at hmem
    exact absurd (List.mem_singleton.1 hmem) hne

theorem propName_sessionTimeout : PropName "sessionTimeout" where
  ne := by decide
  chars := List.all_eq_true.1 rfl
  plain := by
    intro as bs heq
    have hmem : '_' ∈ "sessionTimeout".toList := by
      rw [heq]
      simp
    exact absurd hmem (by decide)

/-- The two values of a property that is spelled in two ways. -/
theorem overridden_of_sessionTimeout :
    twoTimeouts.prop? "sessiontimeout" = some "5" ∧
      ∃ v, twoTimeouts.prop? "SessionTimeout" = some v := by
  obtain ⟨hover, -⟩ := overridden_of_only propName_sessionTimeout onlyVariable_sessionTimeout
    load_twoTimeouts
  obtain ⟨v, hv, -⟩ := hover.found "SessionTimeout" (by decide)
  exact ⟨hover.lower, v, hv⟩

/-- **The file wins** over the variable for a look-up under its spelling. -/
theorem file_wins :
    (∃ s, load (some timeoutFile) ∅ = .ok s) ∧
    OnlyVariable timeoutVariable "sessionTimeout" "BATATA_REGISTRY__PROPS__SESSIONTIMEOUT" "5" ∧
    ∃ s, load (some timeoutFile) timeoutVariable = .ok s ∧
      s.prop? "sessionTimeout" = some "30000" := by
  have halone : load (some timeoutFile) ∅ =
      .ok ⟨"", "a:2181", (∅ : Table String).insert "sessionTimeout" "30000"⟩ := by
    decide +kernel
  exact ⟨⟨_, halone⟩, onlyVariable_sessionTimeout, twoTimeouts, load_twoTimeouts, by decide⟩

end Discovery.Settings
