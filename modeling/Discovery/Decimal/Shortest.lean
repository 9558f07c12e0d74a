import Discovery.Decimal.Double

/-!
# The shortest decimal

Every finite double has an interval of numbers that round to it.  Its shortest decimal is the
number with the fewest digits in that interval, and of several the nearest; when two are equally
near, a rule says which one is taken.
-/

namespace Discovery.Decimal

/-- Which of two equally near decimals is taken. -/
inductive Tie where
  | up
  | even
deriving DecidableEq, Repr

/-- A positive decimal number, `digits * 10 ^ exponent`. -/
structure Scaled where
  digits : Nat
  exponent : Int
deriving DecidableEq, Repr

/-- `n * 10 ^ e` as a numerator and a denominator. -/
def scale10 (n : Nat) (e : Int) : Nat × Nat :=
  if 0 ≤ e then (n * tenTo e.toNat, 1) else (n, tenTo (-e).toNat)

/-- The numbers that round to a double, as multiples of a quarter of its last place. -/
structure Interval where
  low : Nat
  mid : Nat
  high : Nat
  closed : Bool
  exponent : Int

/-- The interval of a positive finite double.  Below a power of two the next double is nearer. -/
def Interval.ofDouble (x : Double) : Interval :=
  let m := x.significand
  let narrow := m == twoTo 52 && x.exponent != -1074
  { low := if narrow then 4 * m - 1 else 4 * m - 2
    mid := 4 * m
    high := 4 * m + 2
    closed := m % 2 == 0
    exponent := x.exponent - 2 }

/-- Whether `digits * 10 ^ e` lies in the interval. -/
def Interval.holds (i : Interval) (digits : Nat) (e : Int) : Bool :=
  let (a, b) := scale10 digits e
  let (c, d) := Double.scale2 1 i.exponent
  let here := a * d
  let unit := b * c
  if i.closed then i.low * unit ≤ here && here ≤ i.high * unit
  else i.low * unit < here && here < i.high * unit

/-- The exponent of the highest power of ten that is not above `num / den`, found by trying a few
exponents from one that is surely low enough. -/
def log10Ratio (num den : Nat) : Int :=
  let t := Double.log2Ratio num den
  let start := t * 1233 / 4096 - 1
  let climb (e : Int) : Int :=
    let (a, b) := scale10 1 (e + 1)
    if a * den ≤ num * b then e + 1 else e
  climb (climb (climb (climb start)))

/-- Tries the two neighbours of `num / den` among the multiples of `10 ^ e`. -/
def onGrid? (i : Interval) (tie : Tie) (num den : Nat) (e : Int) : Option Nat :=
  let (a, b) := scale10 1 e
  let lower := num * b / (den * a)
  let rest := 2 * (num * b % (den * a))
  let upper := lower + 1
  match i.holds lower e, i.holds upper e with
  | false, false => none
  | true, false => some lower
  | false, true => some upper
  | true, true =>
    if rest < den * a then some lower
    else if den * a < rest then some upper
    else match tie with
      | .up => some upper
      | .even => some (if lower % 2 = 0 then lower else upper)

def trimZeros : Nat → Nat → Int → Scaled
  | 0, n, e => ⟨n, e⟩
  | fuel + 1, n, e => if n % 10 = 0 ∧ n ≠ 0 then trimZeros fuel (n / 10) (e + 1) else ⟨n, e⟩

def shortest (tie : Tie) (x : Double) : Scaled :=
  let i := Interval.ofDouble x
  let (num, den) := x.ratio
  let top := log10Ratio num den
  let found := (List.range 17).findSome? fun (n : Nat) =>
    let e := top - n
    (onGrid? i tie num den e).map fun d => trimZeros 20 d e
  found.getD ⟨0, 0⟩

end Discovery.Decimal
