import Discovery.Text.Blank

/-!
# Places in a YAML text

A reader of YAML has to know in which line and column it is.  A `Place` knows that beside the
characters that are still to be read.

* `Place.gap?`: the blanks and the comment in front of the next piece of a line.
-/

namespace Discovery.Settings.Yaml

open Text (isSpace)

/-! ## Characters -/

def isBreak (c : Char) : Bool :=
  c == '\n' || c == '\r'

/-- Whether a character has a meaning of its own inside brackets and braces. -/
def isFlowMark (c : Char) : Bool :=
  c ∈ [',', '[', ']', '\x7b', '\x7d']

/-- Whether a character may stand in a word of Latin letters, digits and dashes. -/
def isWordChar (c : Char) : Bool :=
  c.isAlphanum || c == '_' || c == '-'

def endsLine : List Char → Bool
  | [] => true
  | c :: _ => isBreak c

def endsWord : List Char → Bool
  | [] => true
  | c :: _ => isSpace c || isBreak c

/-- Whether three of a character stand here as a word. -/
def startsMarker (c : Char) : List Char → Bool
  | c₁ :: c₂ :: c₃ :: cs => c₁ == c && c₂ == c && c₃ == c && endsWord cs
  | _ => false

def restOfLine (cs : List Char) : List Char :=
  cs.takeWhile fun c => !isBreak c

/-- The text that line breaks inside a scalar come to: one is a blank, and of more all but the first
are kept. -/
def foldedBreaks : Nat → List Char
  | 0 => []
  | 1 => [' ']
  | n + 2 => List.replicate (n + 1) '\n'

/-! ## Places -/

structure Place where
  /-- What is still to be read. -/
  rest : List Char
  /-- How many characters have been read. -/
  index : Nat
  line : Nat
  column : Nat
  /-- Whether nothing but blanks has been read of the line. -/
  fresh : Bool
deriving Repr

namespace Place

def start (cs : List Char) : Place := ⟨cs, 0, 0, 0, true⟩

def skip (p : Place) (n : Nat) : Place :=
  { p with rest := p.rest.drop n, index := p.index + n, column := p.column + n }

/-- The place behind some characters that are not blanks. -/
def take (p : Place) (n : Nat) : Place :=
  { p.skip n with fresh := p.fresh && n == 0 }

def nextLine (p : Place) : Place :=
  match p.rest with
  | '\r' :: '\n' :: cs => ⟨cs, p.index + 2, p.line + 1, 0, true⟩
  | c :: cs => if isBreak c then ⟨cs, p.index + 1, p.line + 1, 0, true⟩ else p
  | [] => p

def atLineEnd (p : Place) : Bool :=
  endsLine p.rest

/-- Whether the sign for the beginning or the end of a document stands here. -/
def atMarker (p : Place) : Bool :=
  p.column == 0 && (startsMarker '-' p.rest || startsMarker '.' p.rest)

/-- What was found in front of the next piece of a line. -/
structure Gap where
  tab : Bool
  space : Bool

/-- The place behind blanks and a comment, which stands behind a blank.  Tabs are blanks or not. -/
def gap? (p : Place) (tabs : Bool) : Option (Gap × Place) :=
  let blanks := p.rest.takeWhile fun c => c == ' ' || tabs && c == '\t'
  let q := p.skip blanks.length
  let found : Gap := ⟨blanks.contains '\t', blanks.contains ' '⟩
  match q.rest with
  | '#' :: _ => if blanks.isEmpty then none else some (found, q.take (restOfLine q.rest).length)
  | _ => some (found, q)

def pastGap? (p : Place) : Option Place :=
  (p.gap? true).map (·.2)

end Place

end Discovery.Settings.Yaml
