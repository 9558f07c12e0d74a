import Discovery.Proofs.Json.Quoted
import Discovery.Proofs.Json.Integer

/-!
# Printed values

The compact text of a value is read to a draft that shows the value part by part, and nothing of
what stands behind it is touched.  Only the numbers must be integers: a double is read from the
digits that it is printed with, and not from itself.

* `Json.draft`: the draft that shows a value.
* `readsBack`: the text of a value is read to its draft.
* `ofBytes_render`: a whole text.
-/

namespace Discovery

namespace Json

/-! ### Drafts that show a value -/

mutual

/-- The draft that shows a value. -/
def draft : Json → Draft
  | .null => .null
  | .bool b => .bool b
  | .number n => .number (some n)
  | .text s => .text (some s)
  | .array js => .array (itemDrafts js) .closed
  | .object ms => .object (memberDrafts ms) .closed

def itemDrafts : List Json → List Draft
  | [] => []
  | j :: js => j.draft :: itemDrafts js

def memberDrafts : List (String × Json) → List (Option String × Draft)
  | [] => []
  | (k, j) :: ms => (some k, j.draft) :: memberDrafts ms

end

/-- A value whose numbers are integers of 64 bits. -/
inductive IsExact : Json → Prop
  | null : IsExact .null
  | bool (b : Bool) : IsExact (.bool b)
  | number {i : Int} (h : FitsWord i) : IsExact (.number (.int i))
  | text (s : String) : IsExact (.text s)
  | array {js : List Json} (h : ∀ j ∈ js, IsExact j) : IsExact (.array js)
  | object {ms : List (String × Json)} (h : ∀ m ∈ ms, IsExact m.2) : IsExact (.object ms)

variable {j : Json} {js : List Json} {ms : List (String × Json)} {b : UInt8} {fuel : Nat}
  {i : Int} {r : Bytes}

/-! ### The first byte -/

theorem skipBlanks_cons (hb : isBlank b = false) : skipBlanks (b :: r) = b :: r := by
  rw [skipBlanks, List.dropWhile_cons_of_neg (by simp [hb])]

theorem ends_comma : Ends (code ',' :: r) := by
  simp [Ends]
  decide

theorem ends_bracket : Ends (code ']' :: r) := by
  simp [Ends]
  decide

theorem ends_brace : Ends (code '\x7d' :: r) := by
  simp [Ends]
  decide

/-- The text of an integer begins with a minus or a digit, and so with nothing else. -/
theorem exists_cons_intText (i : Int) :
    ∃ b x, Bytes.ofChars (intText i).toList = b :: x ∧
      (b = code '-' ∨ (digit? b).isSome = true) ∧
      ∀ d, d ≠ code '-' → digit? d = none → b ≠ d := by
  by_cases hneg : i < 0
  · exact ⟨_, _, ofChars_intText_of_neg hneg, .inl rfl, fun d hd _ => hd.symm⟩
  · obtain ⟨b, x, hbytes, hb⟩ := exists_cons_toDigits i.natAbs
    refine ⟨b, x, (ofChars_intText_of_nonneg hneg).trans hbytes, .inr hb, ?_⟩
    rintro d - hd rfl
    rw [hd] at hb
    exact nomatch hb

theorem isBlank_of_ne (hb : ∀ d, d ≠ code '-' → digit? d = none → b ≠ d) : isBlank b = false := by
  simp only [isBlank, Bool.or_eq_false_iff, beq_eq_false_iff_ne]
  exact ⟨⟨⟨hb _ (by decide) (by decide), hb _ (by decide) (by decide)⟩,
    hb _ (by decide) (by decide)⟩, hb _ (by decide) (by decide)⟩

/-- **A value begins** with no blank and no closing bracket. -/
theorem exists_cons_chars (h : j.IsExact) :
    ∃ b x, Bytes.ofChars j.chars = b :: x ∧ isBlank b = false ∧ b ≠ code ']' := by
  have hfirst : ∀ (c : Char) (cs : List Char), String.utf8EncodeChar c = [code c] →
      isBlank (code c) = false → code c ≠ code ']' →
      ∃ b x, Bytes.ofChars (c :: cs) = b :: x ∧ isBlank b = false ∧ b ≠ code ']' := by
    intro c cs hc hblank hbracket
    refine ⟨code c, Bytes.ofChars cs, ?_, hblank, hbracket⟩
    rw [Bytes.ofChars_cons, hc, List.singleton_append]
  cases h with
  | null => exact hfirst 'n' _ (by decide) (by decide) (by decide)
  | bool b =>
    cases b with
    | true => exact hfirst 't' _ (by decide) (by decide) (by decide)
    | false => exact hfirst 'f' _ (by decide) (by decide) (by decide)
  | @number i _ =>
    obtain ⟨b, x, hbytes, -, hne⟩ := exists_cons_intText i
    exact ⟨b, x, hbytes, isBlank_of_ne hne, hne _ (by decide) (by decide)⟩
  | text s => exact hfirst '"' _ (by decide) (by decide) (by decide)
  | @array js _ =>
    cases js with
    | nil => exact hfirst '[' _ (by decide) (by decide) (by decide)
    | cons j js => exact hfirst '[' _ (by decide) (by decide) (by decide)
  | @object ms _ =>
    cases ms with
    | nil => exact hfirst '\x7b' _ (by decide) (by decide) (by decide)
    | cons m ms => exact hfirst '\x7b' _ (by decide) (by decide) (by decide)

/-! ### Simple values -/

theorem readValue_null : readValue (fuel + 1) (Bytes.ofChars (chars .null) ++ r) =
    (.null, some r) := rfl

theorem readValue_bool (b : Bool) : readValue (fuel + 1) (Bytes.ofChars (chars (.bool b)) ++ r) =
    (.bool b, some r) := by
  cases b <;> rfl

theorem readValue_number (hi : FitsWord i) (hr : Ends r) :
    readValue (fuel + 1) (Bytes.ofChars (chars (.number (.int i))) ++ r) =
      (.number (some (.int i)), some r) := by
  have hnumeral := readNumeral_intText i hr
  obtain ⟨b, x, hbytes, hb, hne⟩ := exists_cons_intText i
  show readValue (fuel + 1) (Bytes.ofChars (intText i).toList ++ r) = _
  rw [hbytes, List.cons_append] at hnumeral ⊢
  simp only [readValue, skipBlanks_cons (isBlank_of_ne hne), hne (code 'n') (by decide) (by decide),
    hne (code 't') (by decide) (by decide), hne (code 'f') (by decide) (by decide), hb, hnumeral,
    value_numeralOf hi, if_true, if_false]

theorem readValue_text (s : String) :
    readValue (fuel + 1) (Bytes.ofChars (chars (.text s)) ++ r) = (.text (some s), some r) := by
  show readValue (fuel + 1) (Bytes.ofChars (textChars s) ++ r) = _
  have hblank : isBlank (code '"') = false := by decide
  have hword : code '"' ≠ code 'n' ∧ code '"' ≠ code 't' ∧ code '"' ≠ code 'f' := by decide
  have hnumber : ¬ (code '"' = code '-' ∨ (digit? (code '"')).isSome = true) := by decide
  rw [ofChars_textChars, List.cons_append, List.append_assoc, List.singleton_append]
  simp only [readValue, skipBlanks_cons hblank, hword.1, hword.2.1, hword.2.2, hnumber,
    readQuoted_textChars, if_true, if_false]

theorem readValue_bracket : readValue (fuel + 1) (code '[' :: r) =
    ((.array (readItems fuel true r).1 (readItems fuel true r).2.1),
      (readItems fuel true r).2.2) := rfl

theorem readValue_brace : readValue (fuel + 1) (code '\x7b' :: r) =
    ((.object (readMembers fuel true r).1 (readMembers fuel true r).2.1),
      (readMembers fuel true r).2.2) := rfl

/-! ### Arrays -/

/-- A value is read back, whatever stands behind it that does not go on with a number.  A step is
taken for each of the value itself, the list that it stands in, and the item that it is there, so
three for each byte are enough. -/
def ReadsBack (j : Json) : Prop :=
  ∀ fuel r, Ends r → 3 * (Bytes.ofChars j.chars).length ≤ fuel →
    readValue fuel (Bytes.ofChars j.chars ++ r) = (j.draft, some r)

theorem ofChars_comma (cs : List Char) :
    Bytes.ofChars (',' :: cs) = code ',' :: Bytes.ofChars cs := by
  have hcomma : String.utf8EncodeChar ',' = [code ','] := by decide
  rw [Bytes.ofChars_cons, hcomma, List.singleton_append]

theorem ofChars_itemsChars_cons (j : Json) (js : List Json) :
    Bytes.ofChars (itemsChars (j :: js)) =
      code ',' :: (Bytes.ofChars j.chars ++ Bytes.ofChars (itemsChars js)) := by
  rw [itemsChars, List.cons_append, ofChars_comma, Bytes.ofChars_append]

theorem ends_items (js : List Json) : Ends (Bytes.ofChars (itemsChars js) ++ r) := by
  cases js with
  | nil => exact ends_bracket
  | cons j js =>
    rw [ofChars_itemsChars_cons]
    exact ends_comma

theorem readItems_first {x : Bytes} (hblank : isBlank b = false) (hb : b ≠ code ']') :
    readItems (fuel + 1) true (b :: x) = readItem fuel (b :: x) := by
  simp only [readItems, skipBlanks_cons hblank, hb, if_true, if_false]

theorem readItems_comma {x : Bytes} (hblank : isBlank b = false) (hb : b ≠ code ']') :
    readItems (fuel + 1) false (code ',' :: b :: x) = readItem fuel (b :: x) := by
  have hcomma : isBlank (code ',') = false := by decide
  have hbracket : code ',' ≠ code ']' := by decide
  simp only [readItems, skipBlanks_cons hcomma, skipBlanks_cons hblank, hbracket, hb, if_true,
    if_false, Bool.false_eq_true]

theorem readItem_of_readValue {d : Draft} {bs : Bytes}
    (h : readValue fuel bs = (d, some r)) :
    readItem (fuel + 1) bs =
      (d :: (readItems fuel false r).1, (readItems fuel false r).2) := by
  simp only [readItem, h]

/-- **The items of an array** are read back if each of them is.  The induction is on the items
behind the first one. -/
theorem readItem_chars (hback : j.ReadsBack) (hjs : ∀ j ∈ js, j.IsExact ∧ j.ReadsBack)
    (hfuel : 3 * ((Bytes.ofChars j.chars).length + (Bytes.ofChars (itemsChars js)).length) < fuel) :
    readItem fuel (Bytes.ofChars j.chars ++ (Bytes.ofChars (itemsChars js) ++ r)) =
      (itemDrafts (j :: js), .closed, some r) := by
  induction js generalizing j fuel with
  | nil =>
    have hclose : Bytes.ofChars (itemsChars []) = [code ']'] := by decide
    rw [hclose, List.length_singleton] at hfuel
    obtain ⟨left, rfl⟩ : ∃ left, fuel = left + 2 := ⟨fuel - 2, by omega⟩
    rw [readItem_of_readValue (hback (left + 1) _ (ends_items []) (by omega))]
    rfl
  | cons i js ih =>
    obtain ⟨⟨hi, hiback⟩, hjs⟩ := List.forall_mem_cons.1 hjs
    rw [ofChars_itemsChars_cons, List.length_cons, List.length_append] at hfuel
    obtain ⟨left, rfl⟩ : ∃ left, fuel = left + 2 := ⟨fuel - 2, by omega⟩
    have hvalue := hback (left + 1) _ (ends_items (r := r) (i :: js)) (by omega)
    have hleft : 3 * ((Bytes.ofChars i.chars).length +
        (Bytes.ofChars (itemsChars js)).length) < left := by
      omega
    have hitems := ih hiback hjs hleft
    obtain ⟨b, x, hbytes, hblank, hbracket⟩ := exists_cons_chars hi
    rw [readItem_of_readValue hvalue, ofChars_itemsChars_cons, List.cons_append, List.append_assoc]
    rw [hbytes, List.cons_append] at hitems ⊢
    rw [readItems_comma hblank hbracket, hitems]
    rfl

theorem readsBack_array (hjs : ∀ j ∈ js, j.IsExact ∧ j.ReadsBack) : (Json.array js).ReadsBack := by
  intro fuel r _ hfuel
  cases js with
  | nil =>
    have hbytes : Bytes.ofChars (chars (.array [])) = [code '[', code ']'] := by decide
    rw [hbytes] at hfuel ⊢
    obtain ⟨left, rfl⟩ : ∃ left, fuel = left + 2 := ⟨fuel - 2, by simp at hfuel; omega⟩
    rfl
  | cons j js =>
    obtain ⟨⟨hj, hback⟩, hjs⟩ := List.forall_mem_cons.1 hjs
    have hopen : String.utf8EncodeChar '[' = [code '['] := by decide
    have hbytes : Bytes.ofChars (chars (.array (j :: js))) =
        code '[' :: (Bytes.ofChars j.chars ++ Bytes.ofChars (itemsChars js)) := by
      rw [chars, List.cons_append, Bytes.ofChars_cons, hopen, Bytes.ofChars_append]
      rfl
    rw [hbytes, List.length_cons, List.length_append] at hfuel
    obtain ⟨left, rfl⟩ : ∃ left, fuel = left + 2 := ⟨fuel - 2, by omega⟩
    have hleft : 3 * ((Bytes.ofChars j.chars).length +
        (Bytes.ofChars (itemsChars js)).length) < left := by
      omega
    have hitems := readItem_chars (r := r) hback hjs hleft
    obtain ⟨b, x, hfirst, hblank, hbracket⟩ := exists_cons_chars hj
    rw [hbytes, List.cons_append, List.append_assoc, readValue_bracket]
    rw [hfirst, List.cons_append] at hitems ⊢
    rw [readItems_first hblank hbracket, hitems]
    rfl

/-! ### Objects -/

def memberBytes (m : String × Json) : Bytes :=
  Bytes.ofChars (textChars m.1) ++ code ':' :: Bytes.ofChars m.2.chars

theorem memberBytes_append (m : String × Json) (r : Bytes) : memberBytes m ++ r =
    code '"' :: (quotedBytes m.1.toList ++
      code '"' :: code ':' :: (Bytes.ofChars m.2.chars ++ r)) := by
  rw [memberBytes, ofChars_textChars]
  simp only [List.cons_append, List.append_assoc, List.nil_append]

theorem length_chars_lt (m : String × Json) :
    (Bytes.ofChars m.2.chars).length < (memberBytes m).length := by
  rw [memberBytes, List.length_append, List.length_cons]
  omega

theorem ofChars_member (k : String) (j : Json) (cs : List Char) :
    Bytes.ofChars (textChars k ++ ':' :: j.chars ++ cs) =
      memberBytes (k, j) ++ Bytes.ofChars cs := by
  have hcolon : String.utf8EncodeChar ':' = [code ':'] := by decide
  rw [Bytes.ofChars_append, Bytes.ofChars_append, Bytes.ofChars_cons, hcolon]
  rfl

theorem ofChars_membersChars_cons (m : String × Json) (ms : List (String × Json)) :
    Bytes.ofChars (membersChars (m :: ms)) =
      code ',' :: (memberBytes m ++ Bytes.ofChars (membersChars ms)) := by
  obtain ⟨k, j⟩ := m
  rw [membersChars, List.cons_append, List.cons_append, ofChars_comma, ofChars_member]

theorem ends_members (ms : List (String × Json)) : Ends (Bytes.ofChars (membersChars ms) ++ r) := by
  cases ms with
  | nil => exact ends_brace
  | cons m ms =>
    rw [ofChars_membersChars_cons]
    exact ends_comma

theorem readMembers_first {x : Bytes} :
    readMembers (fuel + 1) true (code '"' :: x) = readMember fuel (code '"' :: x) := rfl

theorem readMembers_comma {x : Bytes} :
    readMembers (fuel + 1) false (code ',' :: code '"' :: x) = readMember fuel (code '"' :: x) :=
  rfl

theorem readMember_of_readValue {k : String} {d : Draft} {bs : Bytes}
    (h : readValue fuel bs = (d, some r)) :
    readMember (fuel + 1) (code '"' :: (quotedBytes k.toList ++ code '"' :: code ':' :: bs)) =
      ((some k, d) :: (readMembers fuel false r).1, (readMembers fuel false r).2) := by
  have hcolon : skipBlanks (code ':' :: bs) = code ':' :: bs := skipBlanks_cons (by decide)
  simp only [readMember, readQuoted_textChars, hcolon, if_true, h]

/-- **The members of an object** are read back if each value is.  The induction is on the members
behind the first one. -/
theorem readMember_chars {m : String × Json} (hback : m.2.ReadsBack)
    (hms : ∀ m ∈ ms, m.2.ReadsBack)
    (hfuel : 3 * ((memberBytes m).length + (Bytes.ofChars (membersChars ms)).length) < fuel) :
    readMember fuel (memberBytes m ++ (Bytes.ofChars (membersChars ms) ++ r)) =
      (memberDrafts (m :: ms), .closed, some r) := by
  induction ms generalizing m fuel with
  | nil =>
    have hclose : Bytes.ofChars (membersChars []) = [code '\x7d'] := by decide
    rw [hclose, List.length_singleton] at hfuel
    have hlength := length_chars_lt m
    obtain ⟨left, rfl⟩ : ∃ left, fuel = left + 2 := ⟨fuel - 2, by omega⟩
    have hvalue := hback (left + 1) _ (ends_members (r := r) []) (by omega)
    rw [memberBytes_append, readMember_of_readValue hvalue]
    rfl
  | cons m' ms ih =>
    obtain ⟨hback', hms⟩ := List.forall_mem_cons.1 hms
    have hlength := length_chars_lt m
    rw [ofChars_membersChars_cons, List.length_cons, List.length_append] at hfuel
    obtain ⟨left, rfl⟩ : ∃ left, fuel = left + 2 := ⟨fuel - 2, by omega⟩
    have hvalue := hback (left + 1) _ (ends_members (r := r) (m' :: ms)) (by omega)
    have hleft : 3 * ((memberBytes m').length +
        (Bytes.ofChars (membersChars ms)).length) < left := by
      omega
    have hmembers := ih hback' hms hleft
    rw [memberBytes_append, readMember_of_readValue hvalue, ofChars_membersChars_cons,
      List.cons_append, List.append_assoc]
    rw [memberBytes_append] at hmembers ⊢
    rw [readMembers_comma, hmembers]
    rfl

theorem readsBack_object (hms : ∀ m ∈ ms, m.2.ReadsBack) : (Json.object ms).ReadsBack := by
  intro fuel r _ hfuel
  cases ms with
  | nil =>
    have hbytes : Bytes.ofChars (chars (.object [])) = [code '\x7b', code '\x7d'] := by decide
    rw [hbytes] at hfuel ⊢
    obtain ⟨left, rfl⟩ : ∃ left, fuel = left + 2 := ⟨fuel - 2, by simp at hfuel; omega⟩
    rfl
  | cons m ms =>
    obtain ⟨hback, hms⟩ := List.forall_mem_cons.1 hms
    have hopen : String.utf8EncodeChar '\x7b' = [code '\x7b'] := by decide
    have hbytes : Bytes.ofChars (chars (.object (m :: ms))) =
        code '\x7b' :: (memberBytes m ++ Bytes.ofChars (membersChars ms)) := by
      obtain ⟨k, j⟩ := m
      rw [chars, List.cons_append, List.cons_append, Bytes.ofChars_cons, hopen, ofChars_member]
      rfl
    rw [hbytes, List.length_cons, List.length_append] at hfuel
    obtain ⟨left, rfl⟩ : ∃ left, fuel = left + 2 := ⟨fuel - 2, by omega⟩
    have hleft : 3 * ((memberBytes m).length +
        (Bytes.ofChars (membersChars ms)).length) < left := by
      omega
    have hmembers := readMember_chars (r := r) hback hms hleft
    rw [hbytes, List.cons_append, List.append_assoc, readValue_brace]
    rw [memberBytes_append] at hmembers ⊢
    rw [readMembers_first, hmembers]
    rfl

/-! ### Any value -/

/-- **What is printed is read back.**  The induction is on the value. -/
theorem readsBack (h : j.IsExact) : j.ReadsBack := by
  have hpos : ∀ j : Json, j.IsExact → ∀ fuel, 3 * (Bytes.ofChars j.chars).length ≤ fuel →
      ∃ left, fuel = left + 1 := by
    intro j hj fuel hfuel
    obtain ⟨b, x, hbytes, -, -⟩ := exists_cons_chars hj
    rw [hbytes, List.length_cons] at hfuel
    exact ⟨fuel - 1, by omega⟩
  induction h with
  | null =>
    intro fuel r _ hfuel
    obtain ⟨left, rfl⟩ := hpos _ .null fuel hfuel
    exact readValue_null
  | bool b =>
    intro fuel r _ hfuel
    obtain ⟨left, rfl⟩ := hpos _ (.bool b) fuel hfuel
    exact readValue_bool b
  | number hi =>
    intro fuel r hr hfuel
    obtain ⟨left, rfl⟩ := hpos _ (.number hi) fuel hfuel
    exact readValue_number hi hr
  | text s =>
    intro fuel r _ hfuel
    obtain ⟨left, rfl⟩ := hpos _ (.text s) fuel hfuel
    exact readValue_text s
  | array hjs ih => exact readsBack_array fun j hj => ⟨hjs j hj, ih j hj⟩
  | object _ ih => exact readsBack_object ih

/-- **The text of a value** is read to its draft, and nothing is left. -/
theorem ofBytes_render (h : j.IsExact) :
    Draft.ofBytes (Bytes.ofText j.render) = (j.draft, some []) := by
  have hback := readsBack h (3 * (Bytes.ofText j.render).length + 3) [] ends_nil
  rw [render, Bytes.ofText_ofList, List.append_nil] at *
  exact hback (by omega)

end Json

end Discovery
