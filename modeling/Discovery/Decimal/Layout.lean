import Discovery.Decimal.Shortest

/-!
# Layouts of decimals

The plain layout never has an exponent and never a needless point: `1`, `0.5`, `0.0000001`.  The
JSON layout always shows that a number is not an integer, by a point or by an exponent, and uses
an exponent from `1e+16` on and below `0.00001`.
-/

namespace Discovery.Decimal

def digitsText (n : Nat) : String :=
  String.ofList (Nat.toDigits 10 n)

def zeros (n : Nat) : String :=
  String.ofList (List.replicate n '0')

/-- A decimal without an exponent: the whole part, and the digits behind the point if any. -/
def Scaled.positional (d : Scaled) : String × String :=
  let ds := Nat.toDigits 10 d.digits
  if 0 ≤ d.exponent then (digitsText d.digits ++ zeros d.exponent.toNat, "")
  else
    let places := (-d.exponent).toNat
    if ds.length ≤ places then ("0", zeros (places - ds.length) ++ String.ofList ds)
    else (String.ofList (ds.take (ds.length - places)),
      String.ofList (ds.drop (ds.length - places)))

/-- A decimal with one digit before the point. -/
def Scaled.scientific (d : Scaled) : String :=
  let ds := Nat.toDigits 10 d.digits
  let e := d.exponent + (ds.length - 1 : Nat)
  let rest := String.ofList (ds.drop 1)
  let mantissa := String.ofList (ds.take 1) ++ (if rest = "" then "" else "." ++ rest)
  mantissa ++ "e" ++ (if e < 0 then "-" else "+") ++ digitsText e.natAbs

def signText (negative : Bool) : String :=
  if negative then "-" else ""

end Discovery.Decimal

namespace Discovery.Double

open Decimal

/-- The plain layout, with the shortest digits; of two equally near the greater. -/
def plain (x : Double) : String :=
  if x.isNaN then "NaN"
  else
    signText x.isNegative ++
      (if x.isInfinite then "inf"
      else if x.isZero then "0"
      else
        let (whole, rest) := (shortest .up x).positional
        if rest = "" then whole else whole ++ "." ++ rest)

/-- The layout of a finite number in JSON, with the shortest digits; of two equally near the even
one. -/
def json (x : Double) : String :=
  signText x.isNegative ++
    (if x.isZero then "0.0"
    else
      let d := shortest .even x
      let point := (Nat.toDigits 10 d.digits).length + d.exponent
      if point ≤ -5 ∨ 16 < point then d.scientific
      else
        let (whole, rest) := d.positional
        whole ++ "." ++ (if rest = "" then "0" else rest))

end Discovery.Double
