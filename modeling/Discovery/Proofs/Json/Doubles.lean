import Discovery.Json.Decode

/-!
# Doubles that are read

A JSON text cannot say that a double is no number, and what it says is rounded to a double that is
one.  So whoever reads a double from a text may compare it with others.

* `isNaN_ofRatio`: what is rounded is a number.
* `numeric_ofBytes`: the draft of a text holds numbers only.
* `Reader.Yields`: what a reader makes of such a draft, for lists and for records.
-/

namespace Discovery

/-! ### Rounding -/

namespace Double

variable {x y : Double} {m : Nat}

theorem magnitude_ofMagnitude (negative : Bool) (hm : m ≤ infiniteMagnitude) :
    (ofMagnitude negative m).magnitude = m := by
  have hlt : infiniteMagnitude < 2 ^ 63 := by decide
  have hsmall : m % 2 ^ 63 = m := Nat.mod_eq_of_lt (Nat.lt_of_le_of_lt hm hlt)
  show (UInt64.ofNat _).toNat % 2 ^ 63 = m
  rw [UInt64.toNat_ofNat', Nat.mod_mod_of_dvd _ (by decide)]
  cases negative with
  | false => simpa using hsmall
  | true =>
    show (2 ^ 63 + m) % 2 ^ 63 = m
    rw [Nat.add_mod_left, hsmall]

theorem isNaN_ofMagnitude (negative : Bool) (hm : m ≤ infiniteMagnitude) :
    (ofMagnitude negative m).isNaN = false := by
  unfold isNaN
  rw [magnitude_ofMagnitude negative hm]
  exact decide_eq_false (Nat.not_lt.2 hm)

/-- **What is rounded is a number.** -/
theorem isNaN_ofRatio (negative : Bool) (num den : Nat) :
    (ofRatio negative num den).isNaN = false := by
  unfold ofRatio
  split
  · exact isNaN_ofMagnitude negative (Nat.zero_le _)
  · exact isNaN_ofMagnitude negative (Nat.min_le_right _ _)

theorem isNaN_negate (hx : x.isNaN = false) : x.negate.isNaN = false :=
  isNaN_ofMagnitude _ (Nat.not_lt.1 (of_decide_eq_false hx))

end Double

namespace Json

variable {x : Double} {negative : Bool} {fuel depth : Nat} {d : Draft} {bs : Bytes}

theorem isNaN_signed (negative : Bool) (hx : x.isNaN = false) :
    (signed negative x).isNaN = false := by
  cases negative with
  | false => exact hx
  | true => exact Double.isNaN_negate hx

theorem isNaN_scale {f : Double} {e : Int} (hf : f.isNaN = false) (h : scale fuel f e = some x) :
    x.isNaN = false := by
  induction fuel generalizing f e with
  | zero => exact nomatch h
  | succ fuel ih =>
    unfold scale at h
    dsimp only at h
    split at h
    · split at h
      · split at h
        · exact nomatch h
        · obtain rfl := Option.some.inj h
          exact Double.isNaN_ofRatio ..
      · obtain rfl := Option.some.inj h
        exact Double.isNaN_ofRatio ..
    · split at h
      · obtain rfl := Option.some.inj h
        exact hf
      · split at h
        · exact nomatch h
        · exact ih (Double.isNaN_ofRatio ..) h

theorem isNaN_double? {g : Gathered} (h : g.double? negative = some x) : x.isNaN = false := by
  obtain ⟨y, hy, rfl⟩ := Option.map_eq_some_iff.1 h
  exact isNaN_signed negative (isNaN_scale (Double.isNaN_ofRatio ..) hy)

/-- **The value of a numeral is a number.** -/
theorem isNaN_value {n : Numeral} (h : n.value = some (.double x)) : x.isNaN = false := by
  have hgathered : ∀ (g : Gathered),
      (g.double? n.negative).map Number.double = some (.double x) → x.isNaN = false := by
    intro g hg
    obtain ⟨y, hy, hxy⟩ := Option.map_eq_some_iff.1 hg
    obtain rfl := Number.double.inj hxy
    exact isNaN_double? hy
  unfold Numeral.value at h
  dsimp only at h
  split at h
  · -- digits only
    split at h
    · exact hgathered _ h
    · split at h
      · exact nomatch h
      · split at h
        · obtain rfl := Number.double.inj (Option.some.inj h)
          exact isNaN_signed _ (Double.isNaN_ofRatio ..)
        · exact nomatch h
  · split at h
    · exact hgathered _ h
    · split at h
      · split at h
        · exact nomatch h
        · obtain rfl := Number.double.inj (Option.some.inj h)
          exact isNaN_signed _ (Double.isNaN_ofRatio ..)
      · exact hgathered _ h

/-! ### Drafts -/

/-- A draft whose doubles are numbers. -/
inductive Draft.Numeric : Draft → Prop
  | null : Numeric .null
  | bool (b : Bool) : Numeric (.bool b)
  | number {value : Option Number} (h : ∀ x, value = some (.double x) → x.isNaN = false) :
      Numeric (.number value)
  | text (value : Option String) : Numeric (.text value)
  | array {items : List Draft} (tail : Tail) (h : ∀ d ∈ items, Numeric d) :
      Numeric (.array items tail)
  | object {members : List (Option String × Draft)} (tail : Tail)
      (h : ∀ m ∈ members, Numeric m.2) : Numeric (.object members tail)
  | broken (stop : Break) : Numeric (.broken stop)

/-- What is read with so much fuel is numeric. -/
structure ReadsNumeric (fuel : Nat) : Prop where
  value : ∀ bs, (readValue fuel bs).1.Numeric
  items : ∀ first bs, ∀ d ∈ (readItems fuel first bs).1, d.Numeric
  item : ∀ bs, ∀ d ∈ (readItem fuel bs).1, d.Numeric
  members : ∀ first bs, ∀ m ∈ (readMembers fuel first bs).1, m.2.Numeric
  member : ∀ bs, ∀ m ∈ (readMember fuel bs).1, m.2.Numeric

theorem numeric_word {cs : List Char} (hd : d.Numeric) : (word cs d bs).1.Numeric := by
  unfold word
  split
  · exact hd
  · exact .broken _

theorem ReadsNumeric.value_succ (h : ReadsNumeric fuel) (bs : Bytes) :
    (readValue (fuel + 1) bs).1.Numeric := by
  unfold readValue
  split
  · exact .broken _
  · split
    · exact numeric_word .null
    · split
      · exact numeric_word (.bool _)
      · split
        · exact numeric_word (.bool _)
        · split
          · split
            · exact .number fun x hx => isNaN_value hx
            · exact .broken _
          · split
            · split
              · exact .text _
              · exact .broken _
            · split
              · exact .array _ (h.items true _)
              · split
                · exact .object _ (h.members true _)
                · exact .broken _

theorem ReadsNumeric.items_succ (h : ReadsNumeric fuel) (first : Bool) (bs : Bytes) :
    ∀ d ∈ (readItems (fuel + 1) first bs).1, d.Numeric := by
  unfold readItems
  split
  · exact nofun
  · split
    · exact nofun
    · split
      · exact h.item _
      · split
        · split
          · exact nofun
          · split
            · exact nofun
            · exact h.item _
        · exact nofun

theorem ReadsNumeric.item_succ (h : ReadsNumeric fuel) (bs : Bytes) :
    ∀ d ∈ (readItem (fuel + 1) bs).1, d.Numeric := by
  have hvalue := h.value bs
  unfold readItem
  split
  · next d hd =>
    rw [hd] at hvalue
    exact List.forall_mem_singleton.2 hvalue
  · next d r hd =>
    rw [hd] at hvalue
    exact List.forall_mem_cons.2 ⟨hvalue, h.items false r⟩

theorem ReadsNumeric.members_succ (h : ReadsNumeric fuel) (first : Bool) (bs : Bytes) :
    ∀ m ∈ (readMembers (fuel + 1) first bs).1, m.2.Numeric := by
  unfold readMembers
  split
  · exact nofun
  · split
    · exact nofun
    · split
      · exact h.member _
      · split
        · split
          · exact nofun
          · exact h.member _
        · exact nofun

theorem ReadsNumeric.member_succ (h : ReadsNumeric fuel) (bs : Bytes) :
    ∀ m ∈ (readMember (fuel + 1) bs).1, m.2.Numeric := by
  cases bs with
  | nil => exact nofun
  | cons b r =>
    rw [readMember]
    split
    · split
      · exact nofun
      · split
        · exact List.forall_mem_singleton.2 (.broken _)
        · split
          · next r _ _ =>
            have hvalue := h.value r
            split
            · next d hd =>
              rw [hd] at hvalue
              exact List.forall_mem_singleton.2 hvalue
            · next d r' hd =>
              rw [hd] at hvalue
              exact List.forall_mem_cons.2 ⟨hvalue, h.members false r'⟩
          · exact List.forall_mem_singleton.2 (.broken _)
    · exact nofun

theorem readsNumeric (fuel : Nat) : ReadsNumeric fuel := by
  induction fuel with
  | zero => exact ⟨fun _ => .broken _, nofun, nofun, nofun, nofun⟩
  | succ fuel ih =>
    exact ⟨ih.value_succ, ih.items_succ, ih.item_succ, ih.members_succ, ih.member_succ⟩

/-- **The draft of a text is numeric.** -/
theorem numeric_ofBytes (bs : Bytes) : (Draft.ofBytes bs).1.Numeric :=
  (readsNumeric _).value bs

/-! ### Readers -/

section Readers

variable {ε α β σ : Type} {P : α → Prop} {Q : σ → Prop}

/-- All that a reader makes of a numeric draft has a property. -/
def Reader.Yields (reader : Reader α) (P : α → Prop) : Prop :=
  ∀ depth d x, d.Numeric → reader depth d = .ok x → P x

/-- A field keeps a property of the record that it is read into. -/
def FieldReader.Keeps (f : FieldReader σ) (Q : σ → Prop) : Prop :=
  ∀ depth d s s', d.Numeric → Q s → f.read depth d s = .ok s' → Q s'

theorem exists_of_bind {r : Except ε α} {f : α → Except ε β} {y : β} (h : r >>= f = .ok y) :
    ∃ x, r = .ok x ∧ f x = .ok y := by
  cases r with
  | error e => exact nomatch h
  | ok x => exact ⟨x, rfl, h⟩

theorem exists_of_map {r : Except ε α} {f : α → β} {y : β} (h : r.map f = .ok y) :
    ∃ x, r = .ok x ∧ f x = y := by
  cases r with
  | error e => exact nomatch h
  | ok x => exact ⟨x, rfl, Except.ok.inj h⟩

theorem yields_readDouble : Reader.Yields readDouble fun x => x.isNaN = false := by
  intro depth d x hd h
  unfold readDouble at h
  split at h
  · obtain rfl := Except.ok.inj h
    cases hd with
    | number hx => exact hx _ rfl
  · obtain rfl := Except.ok.inj h
    exact isNaN_signed _ (Double.isNaN_ofRatio ..)
  · exact nomatch h

theorem FieldReader.keeps_of {name : String} {reader : Reader α} {set : α → σ → σ}
    (hreader : Reader.Yields reader P) (hset : ∀ x s, P x → Q s → Q (set x s)) :
    (FieldReader.of name reader set).Keeps Q := by
  intro depth d s s' hd hs h
  obtain ⟨x, hx, rfl⟩ := exists_of_map h
  exact hset x s (hreader depth d x hd hx) hs

theorem FieldReader.keeps_of_set {name : String} {reader : Reader α} {set : α → σ → σ}
    (hset : ∀ x s, Q s → Q (set x s)) : (FieldReader.of name reader set).Keeps Q :=
  keeps_of (P := fun _ => True) (fun _ _ _ _ _ => trivial) fun x s _ => hset x s

theorem forall_of_mapM {item : Draft → Except Category α} {items : List Draft} {xs : List α}
    (hitem : ∀ d x, d.Numeric → item d = .ok x → P x) (hitems : ∀ d ∈ items, d.Numeric)
    (h : items.mapM item = .ok xs) : ∀ x ∈ xs, P x := by
  induction items generalizing xs with
  | nil =>
    obtain rfl := Except.ok.inj h
    exact nofun
  | cons d ds ih =>
    obtain ⟨hd, hds⟩ := List.forall_mem_cons.1 hitems
    rw [List.mapM_cons] at h
    obtain ⟨x, hx, h⟩ := exists_of_bind h
    obtain ⟨ys, hys, h⟩ := exists_of_bind h
    obtain rfl := Except.ok.inj h
    exact List.forall_mem_cons.2 ⟨hitem d x hd hx, ih hds hys⟩

/-- **A list** has of each item what its reader yields. -/
theorem yields_readList {item : Reader α} (hitem : item.Yields P) :
    Reader.Yields (readList item) fun xs => ∀ x ∈ xs, P x := by
  intro depth d xs hd h
  unfold readList at h
  split at h
  · exact nomatch h
  · cases hd with
    | array tail hitems =>
      obtain ⟨ys, hys, h⟩ := exists_of_bind h
      obtain ⟨-, -, h⟩ := exists_of_bind h
      obtain rfl := Except.ok.inj h
      exact forall_of_mapM (hitem _) hitems hys
  · exact nomatch h

theorem keeps_foldMembers {step : σ → String → Draft → Except Category σ}
    {members : List (Option String × Draft)} {s s' : σ}
    (hstep : ∀ s k d s', d.Numeric → Q s → step s k d = .ok s' → Q s')
    (hmembers : ∀ m ∈ members, m.2.Numeric) (hs : Q s)
    (h : foldMembers step members s = .ok s') : Q s' := by
  induction members generalizing s with
  | nil =>
    obtain rfl := Except.ok.inj h
    exact hs
  | cons m ms ih =>
    obtain ⟨hm, hms⟩ := List.forall_mem_cons.1 hmembers
    obtain ⟨none | k, d⟩ := m
    · exact nomatch h
    · obtain ⟨s₁, hs₁, h⟩ := exists_of_bind h
      exact ih hms (hstep s k d s₁ hm hs hs₁) h

theorem keeps_readFields {fields : List (FieldReader σ)} {items : List Draft} {s : σ}
    {got : σ × List Draft} (hfields : ∀ f ∈ fields, f.Keeps Q)
    (hitems : ∀ d ∈ items, d.Numeric) (hs : Q s)
    (h : readFields depth fields items s = .ok got) : Q got.1 := by
  induction fields generalizing items s with
  | nil =>
    obtain rfl := Except.ok.inj h
    exact hs
  | cons f fs ih =>
    obtain ⟨hf, hfs⟩ := List.forall_mem_cons.1 hfields
    cases items with
    | nil =>
      obtain rfl := Except.ok.inj h
      exact hs
    | cons d ds =>
      obtain ⟨hd, hds⟩ := List.forall_mem_cons.1 hitems
      obtain ⟨s₁, hs₁, h⟩ := exists_of_bind h
      exact ih hfs hds (hf depth d s s₁ hd hs hs₁) h

/-- **A record** has what its default has and each field keeps. -/
theorem yields_readRecord {fields : List (FieldReader σ)} {default : σ}
    (hfields : ∀ f ∈ fields, f.Keeps Q) (hdefault : Q default) :
    Reader.Yields (readRecord fields default) Q := by
  intro depth d s hd h
  unfold readRecord at h
  split at h
  · exact nomatch h
  · exact nomatch h
  · cases hd with
    | object tail hmembers =>
      obtain ⟨⟨seen, s₁⟩, hfold, h⟩ := exists_of_bind h
      obtain ⟨-, -, h⟩ := exists_of_bind h
      obtain rfl := Except.ok.inj h
      refine keeps_foldMembers (Q := fun seen => Q seen.2) ?_ hmembers hdefault hfold
      intro seen k d seen' hd hs h
      dsimp only at h
      split at h
      · obtain ⟨-, -, h⟩ := exists_of_bind h
        obtain rfl := Except.ok.inj h
        exact hs
      · next f hf =>
        split at h
        · exact nomatch h
        · obtain ⟨s₁, hs₁, h⟩ := exists_of_bind h
          obtain rfl := Except.ok.inj h
          exact hfields f (List.mem_of_find?_eq_some hf) _ d _ s₁ hd hs hs₁
  · cases hd with
    | array tail hitems =>
      obtain ⟨got, hgot, h⟩ := exists_of_bind h
      have hkept : Q got.1 := keeps_readFields hfields hitems hdefault hgot
      have hfinish : ∀ {tail : Tail}, (tail.finish >>= fun _ => pure got.1) = .ok s → Q s := by
        intro tail h
        obtain ⟨-, -, h⟩ := exists_of_bind h
        obtain rfl := Except.ok.inj h
        exact hkept
      dsimp only at h
      split at h
      · exact nomatch h
      · split at h
        · split at h
          · exact nomatch h
          · exact hfinish h
        · exact hfinish h
  · exact nomatch h

/-- **What is read from a text** has what its reader yields. -/
theorem Reader.Yields.decode {reader : Reader α} (hreader : reader.Yields P) {x : α}
    (h : decode reader bs = .ok x) : P x := by
  unfold Json.decode at h
  obtain ⟨y, hy, h⟩ := exists_of_bind h
  have hyields := hreader _ _ y (numeric_ofBytes bs) hy
  dsimp only at h
  split at h
  · exact nomatch h
  · split at h
    · obtain rfl := Except.ok.inj h
      exact hyields
    · exact nomatch h

end Readers

end Json

end Discovery
