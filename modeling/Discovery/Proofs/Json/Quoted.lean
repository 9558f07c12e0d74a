import Discovery.Json.Draft
import Discovery.Proofs.Text.Encoding

/-!
# Texts in quotes

A text that is written in quotes is read back, whatever characters it has.  A character with an
escape is read from the escape, and all bytes of any other one are taken as they are.

* `readText_plain`, `readText_escaped`: one character of each kind.
* `readQuoted_textChars`: a whole text.
-/

namespace Discovery.Json

variable {c : Char} {b : UInt8} {fuel n : Nat} {r t x y : Bytes}

/-! ### One byte -/

/-- A byte that stands for itself in a text. -/
def IsPlain (b : UInt8) : Prop :=
  b ≠ code '"' ∧ b ≠ code '\\' ∧ ¬ b < 0x20

def IsEscaped (c : Char) : Prop :=
  c = '"' ∨ c = '\\' ∨ c.toNat < 0x20

theorem readText_plainByte (hb : IsPlain b) (h : readText fuel r = .ok (y, t)) :
    readText (fuel + 1) (b :: r) = .ok (b :: y, t) := by
  simp only [readText, hb.1, hb.2.1, hb.2.2, if_false, h]
  rfl

theorem skipText_plainByte (hb : IsPlain b) :
    skipText (fuel + 1) (b :: r) = skipText fuel r := by
  simp only [skipText, hb.1, hb.2.1, hb.2.2, if_false]

theorem readText_plain (hx : ∀ b ∈ x, IsPlain b) (h : readText fuel r = .ok (y, t)) :
    readText (fuel + x.length) (x ++ r) = .ok (x ++ y, t) := by
  induction x with
  | nil => exact h
  | cons b x ih =>
    obtain ⟨hb, hx⟩ := List.forall_mem_cons.1 hx
    exact readText_plainByte hb (ih hx)

theorem skipText_plain (hx : ∀ b ∈ x, IsPlain b) :
    skipText (fuel + x.length) (x ++ r) = skipText fuel r := by
  induction x with
  | nil => rfl
  | cons b x ih =>
    obtain ⟨hb, hx⟩ := List.forall_mem_cons.1 hx
    exact (skipText_plainByte hb).trans (ih hx)

/-! ### One character -/

theorem isPlain_of_mem_ofChar (hc : ¬ IsEscaped c) (hb : b ∈ String.utf8EncodeChar c) :
    IsPlain b := by
  unfold IsEscaped at hc
  push Not at hc
  obtain ⟨hquote, hslash, hcontrol⟩ := hc
  by_cases hlt : c.toNat < 128
  · rw [Bytes.ofChar_of_lt hlt, List.mem_singleton] at hb
    subst hb
    have hne : ∀ d : Char, d.toNat < 128 → c ≠ d → UInt8.ofNat c.toNat ≠ code d := by
      intro d hd hcd heq
      have hnat := congrArg UInt8.toNat heq
      unfold code at hnat
      rw [UInt8.toNat_ofNat', UInt8.toNat_ofNat', Nat.mod_eq_of_lt (by omega),
        Nat.mod_eq_of_lt (by omega)] at hnat
      exact hcd (Char.toNat_inj.1 hnat)
    refine ⟨hne '"' (by decide) hquote, hne '\\' (by decide) hslash, ?_⟩
    rw [UInt8.lt_iff_toNat_lt, UInt8.toNat_ofNat', Nat.mod_eq_of_lt (by omega)]
    exact Nat.not_lt.2 hcontrol
  · have hge := Bytes.le_of_mem_ofChar (Nat.not_lt.1 hlt) hb
    refine ⟨?_, ?_, ?_⟩
    · rintro rfl
      exact absurd hge (by decide)
    · rintro rfl
      exact absurd hge (by decide)
    · rw [UInt8.lt_iff_toNat_lt]
      exact Nat.not_lt.2 (Nat.le_trans (by decide) hge)

theorem escapeChar_of_plain (hc : ¬ IsEscaped c) : escapeChar c = [c] := by
  unfold IsEscaped at hc
  push Not at hc
  obtain ⟨hquote, hslash, hcontrol⟩ := hc
  have hne : ∀ d : Char, d.toNat < 0x20 → c ≠ d := by
    rintro d hd rfl
    omega
  simp only [escapeChar, hquote, hslash, hne '\n' (by decide), hne '\r' (by decide),
    hne '\t' (by decide), hne '\x08' (by decide), hne '\x0c' (by decide),
    Nat.not_lt.2 hcontrol, if_false]

theorem hexDigit?_hexDigit : ∀ n < 16, hexDigit? (code (hexDigit n)) = some n := by
  decide

theorem ofChar_hexDigit : ∀ n < 16, String.utf8EncodeChar (hexDigit n) = [code (hexDigit n)] := by
  decide

theorem readText_letter {e b : UInt8} (he : e ≠ code 'u') (hb : escape? e = some b)
    (h : readText fuel r = .ok (y, t)) :
    readText (fuel + 1) (code '\\' :: e :: r) = .ok (b :: y, t) := by
  have hslash : code '\\' ≠ code '"' := by decide
  simp only [readText, hslash, he, hb, if_true, if_false, h]
  rfl

theorem skipText_letter {e b : UInt8} (he : e ≠ code 'u') (hb : escape? e = some b) :
    skipText (fuel + 1) (code '\\' :: e :: r) = skipText fuel r := by
  have hslash : code '\\' ≠ code '"' := by decide
  simp only [skipText, hslash, he, hb, if_true, if_false, Option.isSome_some]

theorem readHex4_control (hn : n < 0x20) :
    readHex4 (code '0' :: code '0' :: code (hexDigit (n / 16)) :: code (hexDigit (n % 16)) :: r) =
      .ok (n, r) := by
  have hzero : hexDigit? (code '0') = some 0 := by decide
  have hhigh := hexDigit?_hexDigit (n / 16) (by omega)
  have hlow := hexDigit?_hexDigit (n % 16) (by omega)
  have hvalue : ((0 * 16 + 0) * 16 + n / 16) * 16 + n % 16 = n := by omega
  simp only [readHex4, hzero, hhigh, hlow, hvalue]

theorem readText_control (hc : c.toNat < 0x20) (h : readText fuel r = .ok (y, t)) :
    readText (fuel + 1) (code '\\' :: code 'u' :: code '0' :: code '0' ::
      code (hexDigit (c.toNat / 16)) :: code (hexDigit (c.toNat % 16)) :: r) =
      .ok (String.utf8EncodeChar c ++ y, t) := by
  have hslash : code '\\' ≠ code '"' := by decide
  have hsurrogate : ¬ (0xdc00 ≤ c.toNat ∧ c.toNat ≤ 0xdfff) := by omega
  have hbelow : c.toNat < 0xd800 ∨ 0xdbff < c.toNat := by omega
  have hunits : readUnits (code '0' :: code '0' :: code (hexDigit (c.toNat / 16)) ::
      code (hexDigit (c.toNat % 16)) :: r) = .ok (String.utf8EncodeChar c, r) := by
    unfold readUnits
    rw [readHex4_control hc]
    show (if _ then _ else _) = _
    rw [if_neg hsurrogate, if_pos hbelow, codePoint, Char.ofNat_toNat]
    rfl
  simp only [readText, hslash, if_true, if_false, hunits]
  show (readText fuel r >>= _) = _
  rw [h]
  rfl

theorem skipText_control (hn : n < 0x20) :
    skipText (fuel + 1) (code '\\' :: code 'u' :: code '0' :: code '0' ::
      code (hexDigit (n / 16)) :: code (hexDigit (n % 16)) :: r) = skipText fuel r := by
  have hslash : code '\\' ≠ code '"' := by decide
  simp only [skipText, hslash, if_true, if_false, readHex4_control hn]
  rfl

theorem ofChars_escapeChar (hc : IsEscaped c) :
    (∃ e b, e ≠ code 'u' ∧ escape? e = some b ∧ String.utf8EncodeChar c = [b] ∧
      Bytes.ofChars (escapeChar c) = [code '\\', e]) ∨
    c.toNat < 0x20 ∧ Bytes.ofChars (escapeChar c) = [code '\\', code 'u', code '0', code '0',
      code (hexDigit (c.toNat / 16)), code (hexDigit (c.toNat % 16))] := by
  by_cases hletter : c ∈ ['"', '\\', '\n', '\r', '\t', '\x08', '\x0c']
  · refine .inl ?_
    simp only [List.mem_cons, List.not_mem_nil, or_false] at hletter
    rcases hletter with rfl | rfl | rfl | rfl | rfl | rfl | rfl
    · exact ⟨code '"', code '"', by decide, by decide, by decide, by decide⟩
    · exact ⟨code '\\', code '\\', by decide, by decide, by decide, by decide⟩
    · exact ⟨code 'n', 0x0a, by decide, by decide, by decide, by decide⟩
    · exact ⟨code 'r', 0x0d, by decide, by decide, by decide, by decide⟩
    · exact ⟨code 't', 0x09, by decide, by decide, by decide, by decide⟩
    · exact ⟨code 'b', 0x08, by decide, by decide, by decide, by decide⟩
    · exact ⟨code 'f', 0x0c, by decide, by decide, by decide, by decide⟩
  · simp only [List.mem_cons, List.not_mem_nil, or_false, not_or] at hletter
    obtain ⟨hquote, hslash, hnewline, hreturn, htab, hback, hfeed⟩ := hletter
    have hcontrol : c.toNat < 0x20 := (hc.resolve_left hquote).resolve_left hslash
    refine .inr ⟨hcontrol, ?_⟩
    have hfront : Bytes.ofChars ['\\', 'u', '0', '0'] =
        [code '\\', code 'u', code '0', code '0'] := by
      decide
    simp only [escapeChar, hquote, hslash, hnewline, hreturn, htab, hback, hfeed, hcontrol,
      if_true, if_false]
    rw [show ∀ a b : Char, ['\\', 'u', '0', '0', a, b] = ['\\', 'u', '0', '0'] ++ [a, b] from
      fun _ _ => rfl, Bytes.ofChars_append, hfront, Bytes.ofChars_cons, Bytes.ofChars_cons,
      ofChar_hexDigit _ (by omega), ofChar_hexDigit _ (by omega)]
    rfl

/-- **An escaped character is read from its escape.** -/
theorem readText_escaped (hc : IsEscaped c) (h : readText fuel r = .ok (y, t)) :
    readText (fuel + 1) (Bytes.ofChars (escapeChar c) ++ r) =
      .ok (String.utf8EncodeChar c ++ y, t) := by
  rcases ofChars_escapeChar hc with ⟨e, b, he, hb, hchar, hbytes⟩ | ⟨hcontrol, hbytes⟩
  · rw [hbytes, hchar]
    exact readText_letter he hb h
  · rw [hbytes]
    exact readText_control hcontrol h

theorem skipText_escaped (hc : IsEscaped c) :
    skipText (fuel + 1) (Bytes.ofChars (escapeChar c) ++ r) = skipText fuel r := by
  rcases ofChars_escapeChar hc with ⟨e, b, he, hb, -, hbytes⟩ | ⟨hcontrol, hbytes⟩
  · rw [hbytes]
    exact skipText_letter he hb
  · rw [hbytes]
    exact skipText_control hcontrol

/-! ### Whole texts -/

def quotedBytes (cs : List Char) : Bytes :=
  Bytes.ofChars (cs.flatMap escapeChar)

theorem quotedBytes_cons (c : Char) (cs : List Char) :
    quotedBytes (c :: cs) = Bytes.ofChars (escapeChar c) ++ quotedBytes cs := by
  rw [quotedBytes, List.flatMap_cons, Bytes.ofChars_append]
  rfl

theorem length_ofChars_escapeChar_pos (hc : IsEscaped c) :
    0 < (Bytes.ofChars (escapeChar c)).length := by
  rcases ofChars_escapeChar hc with ⟨e, b, -, -, -, hbytes⟩ | ⟨-, hbytes⟩ <;> rw [hbytes] <;> simp

/-- **A text is read up to its closing quote**, and passed over as far.  The induction is on the
characters; each takes at most as many steps as it has bytes. -/
theorem readText_chars (cs : List Char) (hfuel : (quotedBytes cs).length < fuel) :
    readText fuel (quotedBytes cs ++ code '"' :: r) = .ok (Bytes.ofChars cs, r) ∧
    skipText fuel (quotedBytes cs ++ code '"' :: r) = .ok r := by
  induction cs generalizing fuel with
  | nil =>
    obtain ⟨left, rfl⟩ : ∃ left, fuel = left + 1 := ⟨fuel - 1, by omega⟩
    simp [quotedBytes, readText, skipText]
  | cons c cs ih =>
    rw [quotedBytes_cons, List.length_append] at hfuel
    rw [quotedBytes_cons, List.append_assoc, Bytes.ofChars_cons]
    by_cases hc : IsEscaped c
    · have hpos := length_ofChars_escapeChar_pos hc
      obtain ⟨left, rfl⟩ : ∃ left, fuel = left + 1 := ⟨fuel - 1, by omega⟩
      have hleft : (quotedBytes cs).length < left := by omega
      obtain ⟨hread, hskip⟩ := ih hleft
      exact ⟨readText_escaped hc hread, (skipText_escaped hc).trans hskip⟩
    · have hbytes : Bytes.ofChars (escapeChar c) = String.utf8EncodeChar c := by
        rw [escapeChar_of_plain hc, Bytes.ofChars_cons, Bytes.ofChars_nil, List.append_nil]
      rw [hbytes] at hfuel ⊢
      have hplain : ∀ b ∈ String.utf8EncodeChar c, IsPlain b :=
        fun b hb => isPlain_of_mem_ofChar hc hb
      obtain ⟨left, rfl⟩ : ∃ left, fuel = left + (String.utf8EncodeChar c).length :=
        ⟨fuel - (String.utf8EncodeChar c).length, by omega⟩
      have hleft : (quotedBytes cs).length < left := by omega
      obtain ⟨hread, hskip⟩ := ih hleft
      exact ⟨readText_plain hplain hread, (skipText_plain hplain).trans hskip⟩

theorem ofChars_textChars (s : String) :
    Bytes.ofChars (textChars s) = code '"' :: (quotedBytes s.toList ++ [code '"']) := by
  have hquote : Bytes.ofChars ['"'] = [code '"'] := by decide
  rw [textChars, List.cons_append, Bytes.ofChars_cons, Bytes.ofChars_append, hquote]
  rfl

/-- **A text in quotes is read back**, behind its opening quote. -/
theorem readQuoted_textChars (s : String) (r : Bytes) :
    readQuoted (quotedBytes s.toList ++ code '"' :: r) = .ok (some s, r) := by
  have hfuel : (quotedBytes s.toList).length <
      (quotedBytes s.toList ++ code '"' :: r).length + 1 := by
    simp only [List.length_append]
    omega
  obtain ⟨hread, hskip⟩ := readText_chars (r := r) s.toList hfuel
  have hvalue : textValue (quotedBytes s.toList ++ code '"' :: r) = .ok s := by
    simp only [textValue, hread, bind, Except.bind, Bytes.toText?_ofChars, String.ofList_toList]
    rfl
  unfold readQuoted
  rw [hskip, hvalue]
  rfl

end Discovery.Json
