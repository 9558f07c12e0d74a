import Discovery.Proofs.Endpoint.Key
import Mathlib.Data.List.Basic
import Mathlib.Data.List.Induction

/-!
# Keys are faithful

A key has no marks of its own: hosts, segments and parameters are written one after the other as
they are.  If none of them contains what separates it from the others (`Plain`), the endpoint can be
read from the key (`eq_of_key`).

An endpoint is built in steps, from a host and a port.  A `Draft` is such a list of steps.  Of the
segments that are written the first one of each text counts, and of the values that are written for
a parameter the last one.

* `Draft.segments_build`, `Draft.get?_build`: what comes of the segments and the parameters.
* `Draft.key_eq_iff_of_plain`: when two drafts lead to the same key.
-/

namespace Discovery.Endpoint

variable {e e' : Endpoint} {scheme k : String}

/-! ### Reading a key -/

/-- **No part of the endpoint contains what separates it from the others.** -/
structure Plain (e : Endpoint) : Prop where
  host : '/' ∉ e.host.toList
  segment : ∀ s ∈ e.segments, s ≠ "" ∧ '/' ∉ s.toList ∧ '?' ∉ s.toList
  parameter : ∀ x ∈ e.parameters.entries,
    '=' ∉ x.1.toList ∧ '&' ∉ x.1.toList ∧ '&' ∉ x.2.toList

theorem Plain.alike (h : e.Plain) (h' : e'.Plain) : e.Alike e' := by
  have hmarks : ∀ {d : Endpoint}, d.Plain → d.marks = 0 := by
    intro d hd
    refine List.count_eq_zero_of_not_mem fun hmem => ?_
    obtain ⟨s, hs, hq⟩ := List.mem_flatMap.1 hmem
    exact (hd.segment s hs).2.2 hq
  refine ⟨?_, (hmarks h).trans (hmarks h').symm⟩
  rw [List.count_eq_zero_of_not_mem h.host, List.count_eq_zero_of_not_mem h'.host]

theorem eq_nil_of_joinWith {sep : String} {ss : List String} (hss : ∀ s ∈ ss, s ≠ "")
    (h : Text.joinWith sep ss = "") : ss = [] := by
  cases ss with
  | nil => rfl
  | cons s ss =>
    refine absurd ?_ (hss s List.mem_cons_self)
    cases ss with
    | nil => exact h
    | cons s' ss =>
      rw [Text.joinWith] at h
      · exact (String.append_eq_empty_iff.1 (String.append_eq_empty_iff.1 h).1).1
      · exact List.cons_ne_nil _ _

theorem Plain.segments_eq (h : e.Plain) (h' : e'.Plain)
    (hjoin : Text.joinWith "/" e.segments = Text.joinWith "/" e'.segments) :
    e.segments = e'.segments := by
  have hnil : ∀ {d : Endpoint}, d.Plain → Text.joinWith "/" d.segments = "" → d.segments = [] :=
    fun hd => eq_nil_of_joinWith fun s hs => (hd.segment s hs).1
  by_cases hs : e.segments = []
  · rw [hs] at hjoin ⊢
    exact (hnil h' hjoin.symm).symm
  by_cases hs' : e'.segments = []
  · rw [hs'] at hjoin
    exact absurd (hnil h hjoin) hs
  exact Text.joinWith_inj rfl (fun s hs => (h.segment s hs).2.1) (fun s hs => (h'.segment s hs).2.1)
    hs hs' hjoin

/-- A pair can be read from its text, since its name has no equals sign. -/
theorem pair_inj {x y : String × String} (hx : '=' ∉ x.1.toList) (hy : '=' ∉ y.1.toList)
    (h : x.1 ++ "=" ++ x.2 = y.1 ++ "=" ++ y.2) : x = y := by
  have hlist : x.1.toList ++ '=' :: x.2.toList = y.1.toList ++ '=' :: y.2.toList := by
    simpa [String.toList_append] using congrArg String.toList h
  obtain ⟨hname, hvalue⟩ := Text.eq_of_append_cons hx hy hlist
  exact Prod.ext (String.toList_inj.1 hname) (String.toList_inj.1 hvalue)

theorem eq_of_map_eq {α β : Type} {f : α → β} : ∀ {l m : List α},
    (∀ x ∈ l, ∀ y ∈ m, f x = f y → x = y) → l.map f = m.map f → l = m := by
  intro l
  induction l with
  | nil => intro m _ h; exact (List.map_eq_nil_iff.1 h.symm).symm
  | cons x l ih =>
    intro m hinj h
    cases m with
    | nil => exact nomatch h
    | cons y m =>
      obtain ⟨hxy, hlm⟩ := List.cons.inj h
      rw [hinj x List.mem_cons_self y List.mem_cons_self hxy, ih ?_ hlm]
      exact fun a ha b hb => hinj a (List.mem_cons_of_mem _ ha) b (List.mem_cons_of_mem _ hb)

theorem Plain.parameters_eq (h : e.Plain) (h' : e'.Plain) (hquery : e.query = e'.query) :
    e.parameters.entries = e'.parameters.entries := by
  have hamp : ∀ {d : Endpoint}, d.Plain →
      ∀ s ∈ d.parameters.entries.map (fun p => p.1 ++ "=" ++ p.2), '&' ∉ s.toList := by
    intro d hd s hs
    obtain ⟨x, hx, rfl⟩ := List.mem_map.1 hs
    obtain ⟨_, hname, hvalue⟩ := hd.parameter x hx
    simp [String.toList_append, hname, hvalue]
  have hlist := congrArg String.toList hquery
  rw [toList_query, toList_query] at hlist
  by_cases hp : e.parameters.entries = [] <;> by_cases hp' : e'.parameters.entries = []
  · rw [hp, hp']
  · rw [if_pos hp, if_neg hp'] at hlist
    exact nomatch hlist
  · rw [if_neg hp, if_pos hp'] at hlist
    exact nomatch hlist
  · rw [if_neg hp, if_neg hp'] at hlist
    have hjoin := String.toList_inj.1 (List.cons.inj hlist).2
    have hpairs := Text.joinWith_inj rfl (hamp h) (hamp h')
      (fun hnil => hp (List.map_eq_nil_iff.1 hnil))
      (fun hnil => hp' (List.map_eq_nil_iff.1 hnil)) hjoin
    exact eq_of_map_eq (fun x hx y hy => pair_inj (h.parameter x hx).1 (h'.parameter y hy).1) hpairs

/-- **The endpoint can be read from its key**, if no part of it contains what separates it from the
others. -/
theorem eq_of_key (h : e.Plain) (h' : e'.Plain) (hk : e.key scheme = .ok k)
    (hk' : e'.key scheme = .ok k) : e = e' := by
  have ha := h.alike h'
  obtain ⟨hauthority, hrest⟩ := authority_of_key ha.slashes hk hk'
  obtain ⟨hhost, hport⟩ := host_port_of_authority hauthority
  obtain ⟨hjoin, hquery⟩ := segments_of_marks ha.marks hrest
  have hsegments := h.segments_eq h' hjoin
  have hentries := h.parameters_eq h' hquery
  obtain ⟨host, port, segments, ⟨entries, sorted⟩⟩ := e
  obtain ⟨host', port', segments', ⟨entries', sorted'⟩⟩ := e'
  dsimp only at hhost hport hsegments hentries
  subst hhost hport hsegments hentries
  rfl

theorem key_eq_ok (hs : scheme ≠ "") (he : ∀ s ∈ e.segments, s ≠ "") :
    e.key scheme = .ok (e.address scheme) := by
  have hcheck : e.checkSegments = .ok () := by
    unfold checkSegments
    rw [if_neg]
    rw [List.any_eq_true]
    rintro ⟨s, hmem, hempty⟩
    exact he s hmem (beq_iff_eq.1 hempty)
  simp [key, hs, hcheck, bind, Except.bind, pure, Except.pure]

/-! ### Building an endpoint -/

/-- A step of building an endpoint. -/
inductive Entry where
  | segment (s : String)
  | segments (ss : List String)
  | parameter (name value : String)
deriving DecidableEq, Repr

namespace Entry

def apply (e : Endpoint) : Entry → Endpoint
  | .segment s => e.addSegment s
  | .segments ss => e.addSegments ss
  | .parameter name value => e.setParameter name value

def written : Entry → List String
  | .segment s => [s]
  | .segments ss => ss
  | .parameter _ _ => []

def setting? : Entry → Option (String × String)
  | .parameter name value => some (name, value)
  | _ => none

end Entry

/-- How an endpoint is built: from a host and a port, in steps. -/
structure Draft where
  host : String
  port : UInt16
  entries : List Entry
deriving DecidableEq, Repr

namespace Draft

def build (d : Draft) : Endpoint :=
  d.entries.foldl Entry.apply (ofHost d.host d.port)

/-- The segments in the order in which they were written, however often. -/
def written (d : Draft) : List String :=
  d.entries.flatMap Entry.written

/-- The segments in the order in which they were written first. -/
def segments (d : Draft) : List String :=
  d.written.eraseDups

/-- The value that was written last for a parameter. -/
def value? (d : Draft) (name : String) : Option String :=
  (d.entries.filterMap Entry.setting?).reverse.lookup name

/-- **No part that counts contains what separates it from the others.** -/
structure Plain (d : Draft) : Prop where
  host : '/' ∉ d.host.toList
  segment : ∀ s ∈ d.segments, s ≠ "" ∧ '/' ∉ s.toList ∧ '?' ∉ s.toList
  parameter : ∀ name value, d.value? name = some value →
    '=' ∉ name.toList ∧ '&' ∉ name.toList ∧ '&' ∉ value.toList

end Draft

theorem eraseDups_concat (ss : List String) (s : String) :
    (ss ++ [s]).eraseDups = if s ∈ ss then ss.eraseDups else ss.eraseDups ++ [s] := by
  rw [List.eraseDups_append]
  by_cases h : s ∈ ss
  · simp [List.removeAll, h]
  · simp [List.removeAll, h, List.eraseDups_cons]

theorem segments_addSegment {ss : List String} (h : e.segments = ss.eraseDups) (s : String) :
    (e.addSegment s).segments = (ss ++ [s]).eraseDups := by
  rw [eraseDups_concat]
  unfold addSegment
  by_cases hs : s ∈ ss
  · rw [if_pos hs, if_pos (by rw [h]; simpa using hs), h]
  · rw [if_neg hs, if_neg (by rw [h]; simpa using hs), h]

theorem segments_addSegments (ts : List String) : ∀ {ss : List String},
    e.segments = ss.eraseDups → (e.addSegments ts).segments = (ss ++ ts).eraseDups := by
  induction ts using List.reverseRecOn with
  | nil => intro ss h; rw [List.append_nil]; exact h
  | append_singleton ts s ih =>
    intro ss h
    rw [addSegments, List.foldl_concat, ← List.append_assoc]
    exact segments_addSegment (ih h) s

theorem addSegment_eq (e : Endpoint) (s : String) :
    e.addSegment s = { e with segments := (e.addSegment s).segments } := by
  unfold addSegment
  split <;> rfl

theorem addSegments_eq (e : Endpoint) (ss : List String) :
    e.addSegments ss = { e with segments := (e.addSegments ss).segments } := by
  induction ss using List.reverseRecOn with
  | nil => rfl
  | append_singleton ss s ih =>
    rw [addSegments, List.foldl_concat, addSegment_eq]
    rw [addSegments] at ih
    rw [ih]

namespace Entry

variable (x : Entry) (e : Endpoint)

theorem host_apply : (x.apply e).host = e.host := by
  cases x with
  | segment s => rw [apply, addSegment_eq]
  | segments ss => rw [apply, addSegments_eq]
  | parameter name value => rfl

theorem port_apply : (x.apply e).port = e.port := by
  cases x with
  | segment s => rw [apply, addSegment_eq]
  | segments ss => rw [apply, addSegments_eq]
  | parameter name value => rfl

variable {e} in
theorem segments_apply {ss : List String} (h : e.segments = ss.eraseDups) :
    (x.apply e).segments = (ss ++ x.written).eraseDups := by
  cases x with
  | segment s => exact segments_addSegment h s
  | segments ts => exact segments_addSegments ts h
  | parameter name value => rw [written, List.append_nil]; exact h

theorem get?_apply (name : String) : (x.apply e).parameters.get? name =
    (x.setting?.toList.lookup name).or (e.parameters.get? name) := by
  cases x with
  | segment s => rw [apply, addSegment_eq]; rfl
  | segments ss => rw [apply, addSegments_eq]; rfl
  | parameter name' value =>
    show (e.parameters.insert name' value).get? name =
      ([(name', value)].lookup name).or (e.parameters.get? name)
    rw [Table.get?_insert, List.lookup_cons]
    by_cases h : name = name'
    · rw [if_pos h, beq_iff_eq.2 h]
      rfl
    · rw [if_neg h, beq_eq_false_iff_ne.2 h]
      rfl

end Entry

namespace Draft

variable {d d' : Draft}

theorem host_build (d : Draft) : d.build.host = d.host := by
  unfold build
  induction d.entries using List.reverseRecOn with
  | nil => rfl
  | append_singleton entries x ih => rw [List.foldl_concat, x.host_apply, ih]

theorem port_build (d : Draft) : d.build.port = d.port := by
  unfold build
  induction d.entries using List.reverseRecOn with
  | nil => rfl
  | append_singleton entries x ih => rw [List.foldl_concat, x.port_apply, ih]

/-- **Each segment stands where it was written first.** -/
theorem segments_build (d : Draft) : d.build.segments = d.segments := by
  unfold build segments written
  induction d.entries using List.reverseRecOn with
  | nil => rfl
  | append_singleton entries x ih =>
    rw [List.foldl_concat, List.flatMap_append, List.flatMap_singleton]
    exact x.segments_apply ih

/-- **Each parameter has the value that was written last.** -/
theorem get?_build (d : Draft) (name : String) :
    d.build.parameters.get? name = d.value? name := by
  unfold build value?
  induction d.entries using List.reverseRecOn with
  | nil => rfl
  | append_singleton entries x ih =>
    have hlast : ([x].filterMap Entry.setting?).reverse = x.setting?.toList := by
      cases x <;> rfl
    rw [List.foldl_concat, x.get?_apply, ih, List.filterMap_append, List.reverse_append, hlast,
      List.lookup_append]

theorem plain_of_written (hhost : '/' ∉ d.host.toList)
    (hsegment : ∀ s ∈ d.written, s ≠ "" ∧ '/' ∉ s.toList ∧ '?' ∉ s.toList)
    (hparameter : ∀ x ∈ d.entries.filterMap Entry.setting?,
      '=' ∉ x.1.toList ∧ '&' ∉ x.1.toList ∧ '&' ∉ x.2.toList) : d.Plain := by
  refine ⟨hhost, fun s hs => hsegment s (List.mem_eraseDups.1 hs), fun name value hvalue => ?_⟩
  obtain ⟨l, r, hlist, _⟩ := List.lookup_eq_some_iff.1 hvalue
  refine hparameter (name, value) (List.mem_reverse.1 ?_)
  rw [hlist]
  exact List.mem_append_right _ List.mem_cons_self

theorem Plain.build (h : d.Plain) : d.build.Plain where
  host := d.host_build ▸ h.host
  segment := d.segments_build ▸ h.segment
  parameter x hx := by
    have hget := Table.mem_entries_iff.1 (show (x.1, x.2) ∈ _ from hx)
    exact h.parameter x.1 x.2 ((d.get?_build x.1).symm.trans hget)

/-- Drafts lead to the same endpoint if they agree in what counts. -/
theorem build_eq_iff : d.build = d'.build ↔ d.host = d'.host ∧ d.port = d'.port ∧
    d.segments = d'.segments ∧ ∀ name, d.value? name = d'.value? name := by
  simp only [← host_build, ← port_build, ← segments_build, ← get?_build]
  generalize d.build = e, d'.build = e'
  constructor
  · rintro rfl
    exact ⟨rfl, rfl, rfl, fun _ => rfl⟩
  · obtain ⟨host, port, segments, parameters⟩ := e
    obtain ⟨host', port', segments', parameters'⟩ := e'
    rintro ⟨rfl, rfl, rfl, hvalues⟩
    obtain rfl : parameters = parameters' := Table.ext_get? hvalues
    rfl

/-- **Keys are faithful.**  Drafts without separators in their parts have keys, and these are the
same if and only if the drafts have the same host, the same port, the same segments in the order in
which they were written first, and for each parameter the same last value. -/
theorem key_eq_iff_of_plain (hs : scheme ≠ "") (h : d.Plain) (h' : d'.Plain) :
    ∃ k k', d.build.key scheme = .ok k ∧ d'.build.key scheme = .ok k' ∧
      (k = k' ↔ d.host = d'.host ∧ d.port = d'.port ∧ d.segments = d'.segments ∧
        ∀ name, d.value? name = d'.value? name) := by
  have hk := key_eq_ok hs fun s hmem => (h.build.segment s hmem).1
  have hk' := key_eq_ok hs fun s hmem => (h'.build.segment s hmem).1
  refine ⟨_, _, hk, hk', Iff.trans ⟨fun hkk => ?_, fun hbuild => ?_⟩ build_eq_iff⟩
  · rw [← hkk] at hk'
    exact eq_of_key h.build h'.build hk hk'
  · rw [hbuild]

/-- A host that looks like an authority, a segment that is written twice, a parameter that is set
twice, and values that look like the rest of a key. -/
def rewritten : Draft :=
  ⟨"h:2", 1, [.segment "a", .parameter "v" "1", .segments ["b:c", "a"], .parameter "u" "",
    .parameter "v" "x=/y?z"]⟩

def straight : Draft :=
  ⟨"h:2", 1, [.parameter "v" "x=/y?z", .parameter "u" "", .segments ["a", "b:c"]]⟩

def turned : Draft :=
  ⟨"h:2", 1, [.parameter "v" "x=/y?z", .parameter "u" "", .segments ["b:c", "a"]]⟩

theorem key_eq_of_rewritten : (∃ k, rewritten.build.key "zookeeper" = .ok k ∧
      straight.build.key "zookeeper" = .ok k) ∧
    ∃ k k', rewritten.build.key "zookeeper" = .ok k ∧ turned.build.key "zookeeper" = .ok k' ∧
      k ≠ k' := by
  have hrewritten : rewritten.Plain := plain_of_written (by decide) (by decide) (by decide)
  have hstraight : straight.Plain := plain_of_written (by decide) (by decide) (by decide)
  have hturned : turned.Plain := plain_of_written (by decide) (by decide) (by decide)
  have hscheme : "zookeeper" ≠ "" := by decide
  have hvalues : ∀ name, rewritten.value? name = straight.value? name := by
    intro name
    show [("v", "x=/y?z"), ("u", ""), ("v", "1")].lookup name =
      [("u", ""), ("v", "x=/y?z")].lookup name
    by_cases hv : name = "v"
    · subst hv
      rfl
    by_cases hu : name = "u"
    · subst hu
      rfl
    simp only [List.lookup_cons, beq_eq_false_iff_ne.2 hv, beq_eq_false_iff_ne.2 hu]
  constructor
  · obtain ⟨k, k', hk, hk', hiff⟩ := key_eq_iff_of_plain hscheme hrewritten hstraight
    obtain rfl := hiff.2 ⟨rfl, rfl, by decide, hvalues⟩
    exact ⟨k, hk, hk'⟩
  · obtain ⟨k, k', hk, hk', hiff⟩ := key_eq_iff_of_plain hscheme hrewritten hturned
    exact ⟨k, k', hk, hk', fun h => absurd (hiff.1 h).2.2.1 (by decide)⟩

end Draft

end Discovery.Endpoint
