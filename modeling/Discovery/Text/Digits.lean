import Discovery.Decimal.Power
import Discovery.Decimal.Reader

/-!
# Digits of any base

Numbers in a base up to 36, with letters of either case for the digits from ten on.
-/

namespace Discovery.Text

/-- The value of a digit, whichever base it is one of; what is no digit is above all of them. -/
def digitValue (c : Char) : Nat :=
  if c.isDigit then c.toNat - 48
  else if 'a' ≤ c ∧ c ≤ 'z' then c.toNat - 87
  else if 'A' ≤ c ∧ c ≤ 'Z' then c.toNat - 55
  else 36

def digitsValue (base : Nat) (ds : List Char) : Nat :=
  ds.foldl (fun n c => n * base + digitValue c) 0

def areDigits (base : Nat) (ds : List Char) : Bool :=
  !ds.isEmpty && ds.all fun c => digitValue c < base

/-- The integer of 64 bits that digits stand for, perhaps behind a sign. -/
def readInteger? (base : Nat) (cs : List Char) : Option Int :=
  let (negative, ds) := Decimal.spanSign cs
  let size := digitsValue base ds
  let n : Int := if negative then -size else size
  if areDigits base ds && Decimal.fitsSigned n then some n else none

def charOfHex? (cs : List Char) : Option Char :=
  let n := digitsValue 16 cs
  if areDigits 16 cs && decide n.isValidChar then some (Char.ofNat n) else none

end Discovery.Text
