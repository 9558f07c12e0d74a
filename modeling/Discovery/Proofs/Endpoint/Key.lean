import Discovery.Endpoint
import Discovery.Proofs.Text.Separator

/-!
# What a key says

The key of an endpoint begins with its scheme, its host and its port.  If it is known how many
slashes the hosts have, a key determines both; and if it is also known how many question marks the
segments have, it determines the path.

* `authority_of_key`: endpoints with the same key and as many slashes in their hosts.
* `address_of_key`: the case of hosts without slashes.
* `Alike`, `path_of_key`: endpoints of which the key determines the path.
-/

namespace Discovery.Endpoint

variable {e e' : Endpoint} {scheme k : String}

theorem eq_address_of_key (h : e.key scheme = .ok k) : e.address scheme = k := by
  unfold key at h
  by_cases hs : scheme = ""
  · simp [hs, bind, Except.bind, throw, throwThe, MonadExceptOf.throw] at h
  · cases hc : e.checkSegments with
    | error f => simp [hs, hc, bind, Except.bind] at h
    | ok u => simpa [hs, hc, bind, Except.bind, pure, Except.pure] using h

theorem toList_authority (e : Endpoint) :
    e.authority.toList = e.host.toList ++ ':' :: (Decimal.digitsText e.port.toNat).toList := by
  simp [authority, String.toList_append]

theorem count_authority (e : Endpoint) :
    e.authority.toList.count '/' = e.host.toList.count '/' := by
  have hdigits : '/' ∉ (Decimal.digitsText e.port.toNat).toList :=
    Decimal.not_mem_digitsText (by decide) _
  rw [toList_authority, List.count_append, List.count_cons_of_ne (by decide),
    List.count_eq_zero_of_not_mem hdigits, Nat.add_zero]

theorem toList_address (e : Endpoint) (scheme : String) :
    (e.address scheme).toList = scheme.toList ++ "://".toList ++
      (e.authority.toList ++ '/' :: ((Text.joinWith "/" e.segments).toList ++ e.query.toList)) := by
  simp [address, String.toList_append]

theorem host_port_of_authority (h : e.authority.toList = e'.authority.toList) :
    e.host = e'.host ∧ e.port = e'.port := by
  rw [toList_authority, toList_authority] at h
  have hcolon : ∀ n, ':' ∉ (Decimal.digitsText n).toList :=
    Decimal.not_mem_digitsText (by decide)
  obtain ⟨hhost, hport⟩ := Text.eq_of_append_cons_last (hcolon _) (hcolon _) h
  exact ⟨String.toList_inj.1 hhost, UInt16.toNat_inj.1 (Decimal.digitsText_inj hport)⟩

/-- **Endpoints with the same key agree on both sides of a slash**, if their hosts have as many
slashes. -/
theorem authority_of_key (hs : e.host.toList.count '/' = e'.host.toList.count '/')
    (hk : e.key scheme = .ok k) (hk' : e'.key scheme = .ok k) :
    e.authority.toList = e'.authority.toList ∧
      (Text.joinWith "/" e.segments).toList ++ e.query.toList =
        (Text.joinWith "/" e'.segments).toList ++ e'.query.toList := by
  have haddr := toList_address e scheme
  have haddr' := toList_address e' scheme
  rw [eq_address_of_key hk] at haddr
  rw [eq_address_of_key hk'] at haddr'
  have hbehind := List.append_cancel_left (haddr.symm.trans haddr')
  refine Text.eq_of_append_cons_of_count ?_ hbehind
  rw [count_authority, count_authority, hs]

/-- **Endpoints with the same key are at the same address**, if no host has a slash. -/
theorem address_of_key (h : '/' ∉ e.host.toList) (h' : '/' ∉ e'.host.toList)
    (hk : e.key scheme = .ok k) (hk' : e'.key scheme = .ok k) :
    e.host = e'.host ∧ e.port = e'.port := by
  have hs : e.host.toList.count '/' = e'.host.toList.count '/' := by
    rw [List.count_eq_zero_of_not_mem h, List.count_eq_zero_of_not_mem h']
  exact host_port_of_authority (authority_of_key hs hk hk').1

/-! ### Paths -/

theorem toList_query (e : Endpoint) : e.query.toList =
    if e.parameters.entries = [] then []
    else
      '?' :: (Text.joinWith "&" (e.parameters.entries.map fun p => p.1 ++ "=" ++ p.2)).toList := by
  unfold query Table.isEmpty
  by_cases h : e.parameters.entries = []
  · rw [if_pos h, if_pos (List.isEmpty_iff.2 h)]
    rfl
  · rw [if_neg h, if_neg fun hnil => h (List.isEmpty_iff.1 hnil), String.toList_append]
    rfl

/-- The number of question marks in the segments. -/
def marks (e : Endpoint) : Nat :=
  (e.segments.flatMap String.toList).count '?'

/-- **Endpoints whose keys are read alike**: their hosts have as many slashes, and their segments
as many question marks. -/
structure Alike (e e' : Endpoint) : Prop where
  slashes : e.host.toList.count '/' = e'.host.toList.count '/'
  marks : e.marks = e'.marks

theorem Alike.symm (h : e.Alike e') : e'.Alike e :=
  ⟨h.slashes.symm, h.marks.symm⟩

theorem Alike.trans {e'' : Endpoint} (h : e.Alike e') (h' : e'.Alike e'') : e.Alike e'' :=
  ⟨h.slashes.trans h'.slashes, h.marks.trans h'.marks⟩

/-- **The segments and the query can be told apart**, if it is known how many question marks the
segments have. -/
theorem segments_of_marks (hm : e.marks = e'.marks)
    (h : (Text.joinWith "/" e.segments).toList ++ e.query.toList =
      (Text.joinWith "/" e'.segments).toList ++ e'.query.toList) :
    Text.joinWith "/" e.segments = Text.joinWith "/" e'.segments ∧ e.query = e'.query := by
  have hslash : '?' ∉ ("/" : String).toList := by decide
  rw [marks, marks, ← Text.count_joinWith hslash, ← Text.count_joinWith hslash] at hm
  -- a query that is there brings one question mark more than the segments have
  have hcount := congrArg (List.count '?') h
  rw [List.count_append, List.count_append, hm] at hcount
  rw [toList_query, toList_query] at h hcount
  rw [← String.toList_inj, ← String.toList_inj, toList_query, toList_query]
  by_cases he : e.parameters.entries = [] <;> by_cases he' : e'.parameters.entries = []
  · rw [if_pos he, if_pos he'] at h ⊢
    exact ⟨by simpa using h, rfl⟩
  · rw [if_pos he, if_neg he', List.count_nil, List.count_cons_self] at hcount
    omega
  · rw [if_neg he, if_pos he', List.count_nil, List.count_cons_self] at hcount
    omega
  · rw [if_neg he, if_neg he'] at h ⊢
    obtain ⟨hjoin, hquery⟩ := Text.eq_of_append_cons_of_count hm h
    exact ⟨hjoin, congrArg _ hquery⟩

theorem eq_of_path {p : String} (h : e.path = .ok p) : "/" ++ Text.joinWith "/" e.segments = p := by
  unfold path at h
  by_cases hs : e.segments.isEmpty
  · simp [hs, bind, Except.bind, throw, throwThe, MonadExceptOf.throw] at h
  · cases hc : e.checkSegments with
    | error f => simp [hs, hc, bind, Except.bind] at h
    | ok u => simpa [hs, hc, bind, Except.bind, pure, Except.pure] using h

/-- **The key determines the path** of endpoints that are alike. -/
theorem path_of_key (ha : e.Alike e') (hk : e.key scheme = .ok k) (hk' : e'.key scheme = .ok k)
    {p p' : String} (hp : e.path = .ok p) (hp' : e'.path = .ok p') : p = p' := by
  obtain ⟨hjoin, _⟩ := segments_of_marks ha.marks (authority_of_key ha.slashes hk hk').2
  rw [← eq_of_path hp, ← eq_of_path hp', hjoin]

end Discovery.Endpoint
