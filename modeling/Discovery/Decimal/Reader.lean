import Discovery.Decimal.Double

/-!
# Reading decimals

A decimal is written with or without a sign, a point and an exponent; infinity and the value that
is no number have names, in any case.  It is read as the nearest double.
-/

namespace Discovery.Decimal

/-- A decimal as it is written. -/
structure Written where
  whole : List Char
  fraction : List Char
  exponent : Int
deriving DecidableEq, Repr

def spanDigits (cs : List Char) : List Char × List Char :=
  (cs.takeWhile Char.isDigit, cs.dropWhile Char.isDigit)

def digitsNumber (cs : List Char) : Nat :=
  cs.foldl (fun n c => n * 10 + (c.toNat - 48)) 0

/-- A sign at the front: whether it is a minus, and the rest. -/
def spanSign : List Char → Bool × List Char
  | '-' :: cs => (true, cs)
  | '+' :: cs => (false, cs)
  | cs => (false, cs)

/-- An exponent that takes up the rest of a text. -/
def readExponent? : List Char → Option Int
  | [] => some 0
  | c :: cs =>
    if c = 'e' ∨ c = 'E' then
      let (negative, cs) := spanSign cs
      let (ds, rest) := spanDigits cs
      if ds.isEmpty || !rest.isEmpty then none
      else some (if negative then -(digitsNumber ds : Int) else digitsNumber ds)
    else none

def Written.ofChars? (cs : List Char) : Option Written := do
  let (whole, rest) := spanDigits cs
  let (fraction, rest) := match rest with
    | '.' :: rest => spanDigits rest
    | rest => ([], rest)
  if whole.isEmpty && fraction.isEmpty then none
  else
    let exponent ← readExponent? rest
    return { whole, fraction, exponent }

/-- The double nearest to a decimal. -/
def Written.value (w : Written) (negative : Bool) : Double :=
  Double.ofDecimal negative (digitsNumber (w.whole ++ w.fraction))
    (w.exponent - w.fraction.length)

end Discovery.Decimal

namespace Discovery.Double

open Decimal

def ofText? (s : String) : Option Double :=
  let (negative, cs) := spanSign s.toList
  let name := String.ofList (cs.map Char.toLower)
  if name = "inf" ∨ name = "infinity" then some (infinite negative)
  else if name = "nan" then some nan
  else (Written.ofChars? cs).map (·.value negative)

end Discovery.Double
