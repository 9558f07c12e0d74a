import Discovery.Settings.Yaml.Place

/-!
# Literal scalars of YAML

A text may be written as a block of lines.  Behind a bar its lines are kept, and behind a greater
sign they are joined by blanks.  A sign behind that says what happens to the line breaks at the
end: one is left, none (`-`) or all (`+`).  A digit says how far the lines are indented; without it
the first line shows that.
-/

namespace Discovery.Settings.Yaml

open Text (isSpace)

/-- How many line breaks are left at the end of a literal scalar. -/
inductive Ending where
  | one
  | none
  | all
deriving DecidableEq, Repr

def Ending.ofSign? (c : Char) : Option Ending :=
  if c = '-' then some .none else if c = '+' then some .all else Option.none

def stepOfDigit? (c : Char) : Option Nat :=
  if c.isDigit then some (c.toNat - 48) else none

/-- The beginning of a literal scalar. -/
structure Header where
  ending : Ending
  step : Option Nat

/-- Reads the sign and the digit at the beginning of a literal scalar, in any order. -/
def header (p : Place) : Header × Place :=
  match p.rest with
  | [] => (⟨.one, none⟩, p)
  | c :: cs =>
    match Ending.ofSign? c, stepOfDigit? c with
    | some ending, _ =>
      match cs.head?.bind stepOfDigit? with
      | some n => (⟨ending, some n⟩, p.take 2)
      | none => (⟨ending, none⟩, p.take 1)
    | none, some n =>
      match cs.head?.bind Ending.ofSign? with
      | some ending => (⟨ending, some n⟩, p.take 2)
      | none => (⟨.one, some n⟩, p.take 1)
    | none, none => (⟨.one, none⟩, p)

/-- The next line with more than `limit` blanks, or with something else behind at most as many, and
the number of lines in between. -/
def nextIndented (limit : Nat) : Nat → Nat → Place → Nat × Place
  | 0, breaks, p => (breaks, p)
  | fuel + 1, breaks, p =>
    let p := p.skip ((p.rest.take (limit - p.column)).takeWhile (· == ' ')).length
    match p.rest with
    | c :: _ => if isBreak c then nextIndented limit fuel (breaks + 1) p.nextLine else (breaks, p)
    | [] => (breaks, p)

/-- The next line with something else than blanks, the number of lines in between, and the column of
the longest one of all of them. -/
def nextFilled : Nat → Nat → Nat → Place → Nat × Nat × Place
  | 0, breaks, widest, p => (breaks, widest, p)
  | fuel + 1, breaks, widest, p =>
    let p := p.skip (p.rest.takeWhile (· == ' ')).length
    let widest := max widest p.column
    match p.rest with
    | c :: _ =>
      if isBreak c then nextFilled fuel (breaks + 1) widest p.nextLine else (breaks, widest, p)
    | [] => (breaks, widest, p)

/-- What was read of a literal scalar. -/
structure Literal where
  /-- The characters, last first. -/
  taken : List Char
  /-- Whether a line has ended behind them. -/
  ended : Bool
  /-- How many empty lines follow it. -/
  breaks : Nat
  /-- Whether the last line began with a blank. -/
  indented : Bool

/-- Adds the line breaks behind the last line.  Lines are joined where neither of them begins with a
blank. -/
def Literal.join (l : Literal) (joins indented : Bool) : List Char :=
  if joins && l.ended && !l.indented && !indented then
    (if l.breaks = 0 then [' '] else List.replicate l.breaks '\n') ++ l.taken
  else List.replicate (l.breaks + (if l.ended then 1 else 0)) '\n' ++ l.taken

def literalLines (joins : Bool) (column : Nat) : Nat → Literal → Place → Literal × Place
  | 0, l, p => (l, p)
  | fuel + 1, l, p =>
    if p.column != column || p.rest.isEmpty then (l, p)
    else
      let indented := p.rest.head?.any isSpace
      let line := restOfLine p.rest
      let taken := line.reverse ++ l.join joins indented
      let p := p.skip line.length
      if p.rest.isEmpty then (⟨taken, false, 0, indented⟩, p)
      else
        let (breaks, p) := nextIndented column (p.rest.length + 1) 0 p.nextLine
        literalLines joins column fuel ⟨taken, true, breaks, indented⟩ p

/-- The text of a literal scalar that has no line, with the empty lines behind its beginning. -/
def emptyLiteral (ending : Ending) (sameLine : Bool) (breaks : Nat) : String :=
  if sameLine then ""
  else match ending with
    | .none => ""
    | .one => "\n"
    | .all => String.ofList (List.replicate (max 1 breaks) '\n')

/-- The text of a literal scalar.  The end of the text counts as a line break for a line that is
indented to the column. -/
def Literal.text (l : Literal) (ending : Ending) (column : Nat) (q : Place) : String :=
  let last := (if l.ended then 1 else 0) +
    (if q.rest.isEmpty && decide (max 1 column ≤ q.column) then 1 else 0)
  let kept := match ending with
    | .none => 0
    | .one => last
    | .all => last + l.breaks
  String.ofList (List.replicate kept '\n' ++ l.taken).reverse

/-- Reads a literal scalar at its bar or greater sign, inside a block with an indentation.  Its
lines are indented further; those before the first are not longer than its indentation. -/
def literal? (indent : Int) (p : Place) : Option (String × Place) := do
  let joins := p.rest.head? == some '>'
  let (h, q) := header (p.take 1)
  guard (h.step ≠ some 0)
  let q ← q.pastGap?
  guard q.atLineEnd
  let q := q.nextLine
  guard (q.rest.head? ≠ some '\t')
  let fuel := q.rest.length + 1
  let (column, breaks, q) := match h.step with
    | some n =>
      let column := (max 0 indent).toNat + n
      (column, nextIndented column fuel 0 q)
    | none =>
      let (breaks, widest, q) := nextFilled fuel 0 0 q
      (max widest (indent + 1).toNat, breaks, q)
  if q.rest.isEmpty then return (emptyLiteral h.ending (p.line == q.line) breaks, q)
  else
    guard !(q.column < column && indent < q.column)
    let (l, q) := literalLines joins column fuel ⟨[], false, breaks, false⟩ q
    return (l.text h.ending column q, q)

end Discovery.Settings.Yaml
