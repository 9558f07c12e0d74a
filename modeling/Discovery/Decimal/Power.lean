/-!
# Powers and limits

Powers of two and of ten, and the limits of numbers of 64 bits.
-/

namespace Discovery.Decimal

def twoTo (n : Nat) : Nat :=
  Nat.pow 2 n

def tenTo (n : Nat) : Nat :=
  Nat.pow 10 n

/-- The least number above all numbers of 64 bits. -/
def unsignedLimit : Nat :=
  twoTo 64

/-- The least number above all numbers of 64 bits with a sign. -/
def signedLimit : Nat :=
  twoTo 63

/-- Whether a number fits into 64 bits with a sign. -/
def fitsSigned (n : Int) : Bool :=
  -(signedLimit : Int) ≤ n && n < signedLimit

end Discovery.Decimal
