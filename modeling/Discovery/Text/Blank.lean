/-!
# Blanks

The white space of the character standard, and texts without it at their ends.
-/

namespace Discovery.Text

def blankRanges : List (Nat × Nat) :=
  [(0x9, 0xd), (0x20, 0x20), (0x85, 0x85), (0xa0, 0xa0), (0x1680, 0x1680), (0x2000, 0x200a),
   (0x2028, 0x2029), (0x202f, 0x202f), (0x205f, 0x205f), (0x3000, 0x3000)]

def isBlank (c : Char) : Bool :=
  blankRanges.any fun r => r.1 ≤ c.toNat && c.toNat ≤ r.2

/-- Whether a character is a blank inside a line. -/
def isSpace (c : Char) : Bool :=
  c == ' ' || c == '\t'

/-- A text without the mark of the byte order in front of it. -/
def dropOrderMark : List Char → List Char
  | '\ufeff' :: cs => cs
  | cs => cs

/-- A list without the elements at its end that meet a condition. -/
def dropEnd {α : Type} (p : α → Bool) (l : List α) : List α :=
  (l.reverse.dropWhile p).reverse

def trim (s : String) : String :=
  String.ofList (dropEnd isBlank (s.toList.dropWhile isBlank))

/-- The pieces of a list between the elements that meet a condition. -/
def splitList {α : Type} (p : α → Bool) : List α → List (List α)
  | [] => [[]]
  | a :: l =>
    if p a then [] :: splitList p l
    else match splitList p l with
      | [] => [[a]]
      | x :: xs => (a :: x) :: xs

def splitOn (s : String) (c : Char) : List String :=
  (splitList (· == c) s.toList).map String.ofList

/-- Pieces joined with a text between two of them. -/
def joinWith (sep : String) : List String → String
  | [] => ""
  | [s] => s
  | s :: r => s ++ sep ++ joinWith sep r

end Discovery.Text
