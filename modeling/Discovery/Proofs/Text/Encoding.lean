import Discovery.Text.Bytes
import Mathlib.Data.List.Basic
import Mathlib.Data.UInt

/-!
# The bytes of a text

The bytes of a text are those of its characters, one character after the other.  A character below
128 is a single byte, and the bytes of the others are all 128 or more, so a byte below 128 always
stands for itself.

* `ofText_eq`: the bytes of a text, character by character.
* `ofText_lt_ofText`: texts are in the order of their bytes.
-/

namespace Discovery

namespace Bytes

def ofChars (cs : List Char) : Bytes :=
  cs.flatMap String.utf8EncodeChar

variable {c d : Char} {b : UInt8} {cs ds : List Char} {m n : Nat}

@[simp] theorem ofChars_nil : ofChars [] = [] := rfl

theorem ofChars_cons (c : Char) (cs : List Char) :
    ofChars (c :: cs) = String.utf8EncodeChar c ++ ofChars cs :=
  List.flatMap_cons

theorem ofChars_append (cs ds : List Char) : ofChars (cs ++ ds) = ofChars cs ++ ofChars ds :=
  List.flatMap_append

/-- **The bytes of a text are those of its characters.** -/
theorem ofText_eq (s : String) : ofText s = ofChars s.toList := by
  have h := String.utf8Encode_toList (b := s)
  show s.toByteArray.data.toList = _
  rw [← h]
  exact List.toList_data_toByteArray

theorem ofText_ofList (cs : List Char) : ofText (String.ofList cs) = ofChars cs := by
  rw [ofText_eq, String.toList_ofList]

theorem toText?_ofChars (cs : List Char) : toText? (ofChars cs) = some (String.ofList cs) := by
  rw [← ofText_ofList, toText?_ofText]

/-- **A character below 128 is one byte.** -/
theorem ofChar_of_lt (h : c.toNat < 128) : String.utf8EncodeChar c = [UInt8.ofNat c.toNat] := by
  have hc : c.val.toNat ≤ 127 := Nat.le_of_lt_succ h
  simp only [String.utf8EncodeChar, hc, if_true]
  rfl

/-- **The bytes of any other character are 128 or more.** -/
theorem le_of_mem_ofChar (h : 128 ≤ c.toNat) (hb : b ∈ String.utf8EncodeChar c) :
    128 ≤ b.toNat := by
  have hc : ¬ c.val.toNat ≤ 127 := Nat.not_le.2 h
  have hbyte : ∀ n, 128 ≤ n → n < 256 → b = UInt8.ofNat n → 128 ≤ b.toNat := by
    rintro n hn hlt rfl
    rw [UInt8.toNat_ofNat', Nat.mod_eq_of_lt hlt]
    exact hn
  simp only [String.utf8EncodeChar, hc, if_false] at hb
  split at hb
  · rcases List.mem_pair.1 hb with hb | hb <;> exact hbyte _ (by omega) (by omega) hb
  · split at hb
    · simp only [List.mem_cons, List.not_mem_nil, or_false] at hb
      rcases hb with hb | hb | hb <;> exact hbyte _ (by omega) (by omega) hb
    · simp only [List.mem_cons, List.not_mem_nil, or_false] at hb
      rcases hb with hb | hb | hb | hb <;> exact hbyte _ (by omega) (by omega) hb

/-! ### Order -/

theorem lex_ofNat_cons {x y : Bytes} (hn : n < 256)
    (h : m < n ∨ m = n ∧ List.Lex (· < ·) x y) :
    List.Lex (· < ·) (UInt8.ofNat m :: x) (UInt8.ofNat n :: y) := by
  rcases h with h | ⟨rfl, h⟩
  · apply List.Lex.rel
    rw [UInt8.lt_iff_toNat_lt, UInt8.toNat_ofNat', UInt8.toNat_ofNat', Nat.mod_eq_of_lt hn,
      Nat.mod_eq_of_lt (h.trans hn)]
    exact h
  · exact .cons h

theorem toNat_lt (c : Char) : c.val.toNat < 1114112 := by
  have h := c.valid
  simp only [UInt32.isValidChar, Nat.isValidChar] at h
  omega

/-- Two bytes that continue a character are in the order of the twelve bits that they hold. -/
theorem lex_two (h : m % 4096 < n % 4096) (x y : Bytes) :
    List.Lex (· < ·) (UInt8.ofNat (m / 64 % 64 + 128) :: UInt8.ofNat (m % 64 + 128) :: x)
      (UInt8.ofNat (n / 64 % 64 + 128) :: UInt8.ofNat (n % 64 + 128) :: y) := by
  apply lex_ofNat_cons (by omega)
  by_cases hfirst : m / 64 % 64 < n / 64 % 64
  · exact .inl (by omega)
  · exact .inr ⟨by omega, lex_ofNat_cons (by omega) (.inl (by omega))⟩

/-- **Of two characters the lesser one comes first by its bytes**, whatever stands behind them. -/
theorem lex_ofChar (h : c < d) (x y : Bytes) :
    List.Lex (· < ·) (String.utf8EncodeChar c ++ x) (String.utf8EncodeChar d ++ y) := by
  have hlt : c.val.toNat < d.val.toNat := h
  have hc := toNat_lt c
  have hd := toNat_lt d
  simp only [String.utf8EncodeChar]
  generalize c.val.toNat = v at hlt hc
  generalize d.val.toNat = w at hlt hd
  -- the first byte shows how many there are; of equally many, the first that differs decides
  by_cases h₁ : w ≤ 127
  · rw [if_pos h₁, if_pos (by omega)]
    exact lex_ofNat_cons (by omega) (.inl hlt)
  rw [if_neg h₁]
  by_cases h₂ : w ≤ 2047
  · rw [if_pos h₂]
    split
    · exact lex_ofNat_cons (by omega) (.inl (by omega))
    · rw [if_pos (by omega)]
      apply lex_ofNat_cons (by omega)
      by_cases hfirst : v / 64 < w / 64
      · exact .inl (by omega)
      · exact .inr ⟨by omega, lex_ofNat_cons (by omega) (.inl (by omega))⟩
  rw [if_neg h₂]
  by_cases h₃ : w ≤ 65535
  · rw [if_pos h₃]
    split
    · exact lex_ofNat_cons (by omega) (.inl (by omega))
    split
    · exact lex_ofNat_cons (by omega) (.inl (by omega))
    · rw [if_pos (by omega)]
      apply lex_ofNat_cons (by omega)
      by_cases hfirst : v / 4096 < w / 4096
      · exact .inl (by omega)
      · exact .inr ⟨by omega, lex_two (by omega) x y⟩
  rw [if_neg h₃]
  split
  · exact lex_ofNat_cons (by omega) (.inl (by omega))
  split
  · exact lex_ofNat_cons (by omega) (.inl (by omega))
  split
  · exact lex_ofNat_cons (by omega) (.inl (by omega))
  · apply lex_ofNat_cons (by omega)
    by_cases hfirst : v / 262144 < w / 262144
    · exact .inl (by omega)
    · refine .inr ⟨by omega, lex_ofNat_cons (by omega) ?_⟩
      by_cases hsecond : v / 4096 % 64 < w / 4096 % 64
      · exact .inl (by omega)
      · exact .inr ⟨by omega, lex_two (by omega) x y⟩

theorem lex_append (x : Bytes) {y z : Bytes} (h : List.Lex (· < ·) y z) :
    List.Lex (· < ·) (x ++ y) (x ++ z) := by
  induction x with
  | nil => exact h
  | cons b x ih => exact .cons ih

theorem lex_ofChars (h : List.Lex (· < ·) cs ds) :
    List.Lex (· < ·) (ofChars cs) (ofChars ds) := by
  induction h with
  | @nil d ds =>
    rw [ofChars_nil, ofChars_cons]
    cases hd : String.utf8EncodeChar d with
    | nil => exact absurd hd String.utf8EncodeChar_ne_nil
    | cons b bs => exact .nil
  | @cons c cs ds _ ih =>
    rw [ofChars_cons, ofChars_cons]
    exact lex_append _ ih
  | @rel c cs d ds hcd =>
    rw [ofChars_cons, ofChars_cons]
    exact lex_ofChar hcd _ _

/-- **Texts are in the order of their bytes.** -/
theorem ofText_lt_ofText {s t : String} (h : s < t) : ofText s < ofText t := by
  rw [ofText_eq, ofText_eq]
  exact lex_ofChars h

end Bytes

end Discovery
