import Discovery.Decimal.Power

/-!
# Doubles

A `Double` is a 64-bit binary floating-point number, held as its bits: one for the sign, eleven
for the exponent, 52 for the fraction.  All arithmetic here is exact arithmetic on natural numbers
followed by one rounding to the nearest double, a tie going to the even one.
-/

namespace Discovery

/-- A 64-bit binary floating-point number. -/
structure Double where
  bits : UInt64
deriving DecidableEq, Repr, Inhabited

namespace Double

open Decimal

/-! ## Parts -/

/-- The bits below the sign as a number. -/
def magnitude (x : Double) : Nat :=
  x.bits.toNat % twoTo 63

def isNegative (x : Double) : Bool :=
  x.bits.toNat / twoTo 63 == 1

/-- The magnitude of infinity: all exponent bits and no fraction. -/
def infiniteMagnitude : Nat :=
  2047 * twoTo 52

def isNaN (x : Double) : Bool :=
  infiniteMagnitude < x.magnitude

def isInfinite (x : Double) : Bool :=
  x.magnitude == infiniteMagnitude

def isZero (x : Double) : Bool :=
  x.magnitude == 0

def ofMagnitude (negative : Bool) (magnitude : Nat) : Double :=
  ⟨UInt64.ofNat ((if negative then twoTo 63 else 0) + magnitude)⟩

def infinite (negative : Bool) : Double :=
  ofMagnitude negative infiniteMagnitude

/-- The quiet value that is no number. -/
def nan : Double :=
  ofMagnitude false (infiniteMagnitude + twoTo 51)

/-- The significand of a finite double, whose value is `significand * 2 ^ exponent`. -/
def significand (x : Double) : Nat :=
  let m := x.magnitude
  if m / twoTo 52 = 0 then m else twoTo 52 + m % twoTo 52

def exponent (x : Double) : Int :=
  (max (x.magnitude / twoTo 52) 1 : Nat) - 1075

/-- `n * 2 ^ e` as a numerator and a denominator. -/
def scale2 (n : Nat) (e : Int) : Nat × Nat :=
  if 0 ≤ e then (n * twoTo e.toNat, 1) else (n, twoTo (-e).toNat)

/-- The size of a finite double as a numerator and a denominator. -/
def ratio (x : Double) : Nat × Nat :=
  scale2 x.significand x.exponent

/-! ## Rounding -/

/-- The quotient rounded to the nearest natural number, a tie going to the even one. -/
def roundDiv (num den : Nat) : Nat :=
  let q := num / den
  let r := 2 * (num % den)
  if r < den then q
  else if den < r then q + 1
  else if q % 2 = 0 then q else q + 1

/-- The exponent of the highest power of two that is not above `num / den`. -/
def log2Ratio (num den : Nat) : Int :=
  let t : Int := (num.log2 : Int) - (den.log2 : Int)
  let (a, b) := scale2 den t
  if a ≤ num * b then t else t - 1

/-- The double nearest to `num / den`. -/
def ofRatio (negative : Bool) (num den : Nat) : Double :=
  if num = 0 then ofMagnitude negative 0
  else
    let e := max (log2Ratio num den - 52) (-1074)
    let (a, b) := scale2 den e
    let magnitude := (e + 1074).toNat * twoTo 52 + roundDiv (num * b) a
    ofMagnitude negative (min magnitude infiniteMagnitude)

def ofNat (n : Nat) : Double :=
  ofRatio false n 1

/-- The product of two finite doubles, with the sign of the first. -/
def scaleUp (x y : Double) : Double :=
  let (a, b) := x.ratio
  let (c, d) := y.ratio
  ofRatio x.isNegative (a * c) (b * d)

/-- The quotient of two finite doubles, the second not zero, with the sign of the first. -/
def scaleDown (x y : Double) : Double :=
  let (a, b) := x.ratio
  let (c, d) := y.ratio
  ofRatio x.isNegative (a * d) (b * c)

/-- The double with the sign of `x` turned. -/
def negate (x : Double) : Double :=
  ofMagnitude (!x.isNegative) x.magnitude

/-- Equality of numbers: the two zeros are equal, and what is no number equals nothing. -/
def same (x y : Double) : Bool :=
  !x.isNaN && !y.isNaN && (x == y || (x.isZero && y.isZero))

/-! ## Decimals -/

/-- The double nearest to `digits * 10 ^ exponent`.  Far outside the range of doubles the answer
is given without computing the power. -/
def ofDecimal (negative : Bool) (digits : Nat) (exponent : Int) : Double :=
  let places : Int := (Nat.toDigits 10 digits).length + exponent
  if digits = 0 || places < -330 then ofMagnitude negative 0
  else if 310 < places then infinite negative
  else if 0 ≤ exponent then ofRatio negative (digits * tenTo exponent.toNat) 1
  else ofRatio negative digits (tenTo (-exponent).toNat)

end Double

end Discovery
