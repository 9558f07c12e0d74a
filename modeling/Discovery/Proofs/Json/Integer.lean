import Discovery.Json.Draft
import Discovery.Proofs.Text.Encoding
import Mathlib.Data.Nat.Init

/-!
# Integers in a text

An integer of 64 bits, with or without a sign, is read back from its digits, if what stands behind
it does not go on with the number.

* `readDigits_digits`, `readWhole_toDigits`: the digits.
* `gatherWhole_decimals`: their value.
* `readNumeral_intText`, `value_numeralOf`: the integer.
-/

namespace Discovery.Json

variable {c : Char} {b : UInt8} {m n d : Nat} {cs : List Char} {ds : List Nat} {r : Bytes}

/-! ### Digits -/

/-- No number goes on with these bytes. -/
def Ends (r : Bytes) : Prop :=
  ∀ b ∈ r.head?, digit? b = none ∧ b ≠ code '.' ∧ b ≠ code 'e' ∧ b ≠ code 'E'

theorem ends_nil : Ends [] := nofun

/-- The values of the digits of a number. -/
def decimals (n : Nat) : List Nat :=
  (Nat.toDigits 10 n).map fun c => c.toNat - 48

theorem toNat_of_isDigit (hc : c.isDigit = true) : 48 ≤ c.toNat ∧ c.toNat ≤ 57 := by
  simp only [Char.isDigit, Bool.and_eq_true, decide_eq_true_eq] at hc
  exact hc

theorem ofChar_of_isDigit (hc : c.isDigit = true) : String.utf8EncodeChar c = [code c] :=
  Bytes.ofChar_of_lt (by have := toNat_of_isDigit hc; omega)

theorem digit?_of_isDigit (hc : c.isDigit = true) : digit? (code c) = some (c.toNat - 48) := by
  obtain ⟨hlow, hhigh⟩ := toNat_of_isDigit hc
  have hnat : (code c).toNat = c.toNat := by
    unfold code
    rw [UInt8.toNat_ofNat', Nat.mod_eq_of_lt (by omega)]
  have hdigit : 0x30 ≤ code c ∧ code c ≤ 0x39 := by
    rw [UInt8.le_iff_toNat_le, UInt8.le_iff_toNat_le, hnat]
    exact ⟨hlow, hhigh⟩
  rw [digit?, if_pos hdigit, hnat]

theorem readDigits_ends (hr : Ends r) : readDigits r = ([], r) := by
  cases r with
  | nil => rfl
  | cons b r =>
    have hb := (hr b rfl).1
    simp only [readDigits, hb]

/-- **Digits are read as far as they go.** -/
theorem readDigits_digits (hcs : ∀ c ∈ cs, c.isDigit = true) (hr : Ends r) :
    readDigits (Bytes.ofChars cs ++ r) = (cs.map fun c => c.toNat - 48, r) := by
  induction cs with
  | nil => exact readDigits_ends hr
  | cons c cs ih =>
    obtain ⟨hc, hcs⟩ := List.forall_mem_cons.1 hcs
    rw [Bytes.ofChars_cons, ofChar_of_isDigit hc, List.append_assoc, List.singleton_append]
    simp only [readDigits, digit?_of_isDigit hc, ih hcs, List.map_cons]

theorem readDigits_toDigits (n : Nat) (hr : Ends r) :
    readDigits (Bytes.ofChars (Nat.toDigits 10 n) ++ r) = (decimals n, r) :=
  readDigits_digits (fun _ => Nat.isDigit_of_mem_toDigits (by decide) (by decide)) hr

theorem decimals_ne_nil (n : Nat) : decimals n ≠ [] :=
  fun h => Nat.toDigits_ne_nil (List.map_eq_nil_iff.1 h)

theorem decimals_of_lt (h : n < 10) : decimals n = [n] := by
  rw [decimals, Nat.toDigits_of_lt_base h]
  revert n
  decide

theorem decimals_of_le (h : 10 ≤ n) : decimals n = decimals (n / 10) ++ [n % 10] := by
  have hlast := decimals_of_lt (Nat.mod_lt n (by decide : 10 > 0))
  rw [decimals, Nat.toDigits_of_lt_base (Nat.mod_lt n (by decide : 10 > 0))] at hlast
  rw [decimals, Nat.toDigits_of_base_le (by decide) h, List.map_append, hlast]
  rfl

theorem head?_decimals (h : 0 < n) : (decimals n).head? ≠ some 0 := by
  induction n using Nat.strongRecOn with
  | ind n ih =>
    by_cases hn : n < 10
    · rw [decimals_of_lt hn]
      simpa using Nat.ne_of_gt h
    · have hless := ih (n / 10) (by omega) (by omega)
      rw [decimals_of_le (Nat.not_lt.1 hn), List.head?_append]
      cases hd : decimals (n / 10) with
      | nil => exact absurd hd (decimals_ne_nil _)
      | cons d ds => simpa [hd] using hless

theorem decimals_ne_zero_cons : decimals n ≠ 0 :: d :: ds := by
  intro h
  by_cases hn : n < 10
  · rw [decimals_of_lt hn] at h
    exact nomatch h
  · exact head?_decimals (n := n) (by omega) (by rw [h]; rfl)

theorem someDigits_toDigits (n : Nat) (hr : Ends r) :
    someDigits (Bytes.ofChars (Nat.toDigits 10 n) ++ r) = .ok (decimals n, r) := by
  rw [someDigits, readDigits_toDigits n hr]
  cases hd : decimals n with
  | nil => exact absurd hd (decimals_ne_nil n)
  | cons d ds => rfl

/-- **The digits of a number** are read as the digits in front of the point. -/
theorem readWhole_toDigits (n : Nat) (hr : Ends r) :
    readWhole (Bytes.ofChars (Nat.toDigits 10 n) ++ r) = .ok (decimals n, r) := by
  rw [readWhole, someDigits_toDigits n hr]
  cases hd : decimals n with
  | nil => exact absurd hd (decimals_ne_nil n)
  | cons d ds =>
    cases d with
    | zero =>
      cases ds with
      | nil => rfl
      | cons e es => exact absurd hd decimals_ne_zero_cons
    | succ d => rfl

/-! ### Value -/

theorem gatherWhole_append {k : Nat} (es : List Nat) (h : gatherWhole ds k = ⟨m, 0⟩) :
    gatherWhole (ds ++ es) k = gatherWhole es m := by
  induction ds generalizing k with
  | nil =>
    obtain rfl : k = m := congrArg Gathered.significand h
    rfl
  | cons d ds ih =>
    simp only [List.cons_append, gatherWhole] at h ⊢
    split at h
    · next hfit =>
      rw [if_pos hfit]
      exact ih h
    · -- a digit that does not fit counts
      have hzero : (ds.length : Int) + 1 = 0 := congrArg Gathered.exponent h
      omega

/-- **Digits that fit are gathered to their number.** -/
theorem gatherWhole_decimals (h : n ≤ maxUnsigned) : gatherWhole (decimals n) 0 = ⟨n, 0⟩ := by
  induction n using Nat.strongRecOn with
  | ind n ih =>
    by_cases hn : n < 10
    · have hfit : 0 * 10 + n ≤ maxUnsigned := by omega
      rw [decimals_of_lt hn, gatherWhole, if_pos hfit, gatherWhole, Nat.zero_mul, Nat.zero_add]
    · have hfront : gatherWhole (decimals (n / 10)) 0 = ⟨n / 10, 0⟩ :=
        ih (n / 10) (by omega) (by omega)
      have hsum : n / 10 * 10 + n % 10 = n := by omega
      rw [decimals_of_le (Nat.not_lt.1 hn), gatherWhole_append _ hfront, gatherWhole, hsum,
        if_pos h, gatherWhole]

/-! ### Integers -/

/-- An integer of 64 bits, with or without a sign. -/
def FitsWord (i : Int) : Prop :=
  -(Decimal.signedLimit : Int) ≤ i ∧ i ≤ (maxUnsigned : Int)

def numeralOf (i : Int) : Numeral where
  negative := decide (i < 0)
  whole := decimals i.natAbs
  fraction := none
  exponent := none

theorem readFraction_ends (hr : Ends r) : readFraction r = .ok (none, r) := by
  cases r with
  | nil => rfl
  | cons b r => rw [readFraction, if_neg (hr b rfl).2.1]

theorem readExponent_ends (hr : Ends r) : readExponent r = .ok (none, r) := by
  cases r with
  | nil => rfl
  | cons b r =>
    have hb := (hr b rfl).2.2
    rw [readExponent, if_neg (not_or.2 hb)]

theorem exists_cons_toDigits (n : Nat) :
    ∃ b x, Bytes.ofChars (Nat.toDigits 10 n) = b :: x ∧ (digit? b).isSome = true := by
  cases hd : Nat.toDigits 10 n with
  | nil => exact absurd hd Nat.toDigits_ne_nil
  | cons c cs =>
    have hc : c.isDigit = true :=
      Nat.isDigit_of_mem_toDigits (b := 10) (n := n) (by decide) (by decide)
        (hd ▸ List.mem_cons_self)
    refine ⟨code c, Bytes.ofChars cs, ?_, ?_⟩
    · rw [Bytes.ofChars_cons, ofChar_of_isDigit hc, List.singleton_append]
    · rw [digit?_of_isDigit hc, Option.isSome_some]

theorem ofChars_intText_of_neg {i : Int} (h : i < 0) :
    Bytes.ofChars (intText i).toList =
      code '-' :: Bytes.ofChars (Nat.toDigits 10 i.natAbs) := by
  have hminus : String.utf8EncodeChar '-' = [code '-'] := by decide
  have hsign : "-".toList = ['-'] := by decide
  rw [intText, Decimal.signText, decide_eq_true h, if_pos rfl, String.toList_append, hsign,
    List.singleton_append, Bytes.ofChars_cons, hminus, List.singleton_append,
    Decimal.digitsText, String.toList_ofList]

theorem ofChars_intText_of_nonneg {i : Int} (h : ¬ i < 0) :
    Bytes.ofChars (intText i).toList = Bytes.ofChars (Nat.toDigits 10 i.natAbs) := by
  rw [intText, Decimal.signText, decide_eq_false h, if_neg nofun, String.toList_append,
    String.toList_empty, List.nil_append, Decimal.digitsText, String.toList_ofList]

/-- **An integer is read back as it is written.** -/
theorem readNumeral_intText (i : Int) (hr : Ends r) :
    readNumeral (Bytes.ofChars (intText i).toList ++ r) = .ok (numeralOf i, r) := by
  unfold readNumeral
  by_cases hneg : i < 0
  · rw [ofChars_intText_of_neg hneg, List.cons_append]
    simp only [if_true, readWhole_toDigits _ hr]
    show (readFraction r >>= _) = _
    rw [readFraction_ends hr]
    show (readExponent r >>= _) = _
    rw [readExponent_ends hr, numeralOf, decide_eq_true hneg]
    rfl
  · have hwhole := readWhole_toDigits i.natAbs hr
    obtain ⟨b, x, hbytes, hdigit⟩ := exists_cons_toDigits i.natAbs
    have hminus : b ≠ code '-' := by
      rintro rfl
      exact absurd hdigit (by decide)
    rw [hbytes, List.cons_append] at hwhole
    rw [ofChars_intText_of_nonneg hneg, hbytes, List.cons_append]
    simp only [hminus, if_false, hwhole]
    show (readFraction r >>= _) = _
    rw [readFraction_ends hr]
    show (readExponent r >>= _) = _
    rw [readExponent_ends hr, numeralOf, decide_eq_false hneg]
    rfl

/-- **An integer of 64 bits is the value of its digits.** -/
theorem value_numeralOf {i : Int} (hi : FitsWord i) : (numeralOf i).value = some (.int i) := by
  obtain ⟨hlow, hhigh⟩ := hi
  have hlimit : (Decimal.signedLimit : Int) ≤ maxUnsigned := by decide
  have hgathered : gatherWhole (numeralOf i).whole 0 = ⟨i.natAbs, 0⟩ :=
    gatherWhole_decimals (by omega)
  have hnegative : (numeralOf i).negative = decide (i < 0) := rfl
  unfold Numeral.value
  rw [hgathered, hnegative]
  by_cases hneg : i < 0
  · have hfit : ¬ (i.natAbs = 0 ∨ Decimal.signedLimit < i.natAbs) := by omega
    have habs : -(i.natAbs : Int) = i := by omega
    simp only [numeralOf, decide_eq_true hneg, ne_eq, not_true_eq_false, if_false,
      Bool.not_true, Bool.false_eq_true, if_neg hfit, habs]
  · have habs : (i.natAbs : Int) = i := by omega
    simp only [numeralOf, decide_eq_false hneg, ne_eq, not_true_eq_false, if_false,
      Bool.not_false, if_true, habs]

end Discovery.Json
