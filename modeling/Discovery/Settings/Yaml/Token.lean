import Discovery.Settings.Yaml.Tag

/-!
# Tokens of YAML

A YAML text is a list of tokens.  The indentation of its lines is among them: a block of entries
or items begins and ends with a token of its own.  That something is a key is known only at the
mark of the value behind it; the token of the key, and perhaps that of the beginning of its block,
are then put in front of what was read already.

* `Layout`: the tokens so far, the blocks that are open, and where a key may begin.
-/

namespace Discovery.Settings.Yaml

/-- A piece of a YAML text. -/
inductive Token where
  | directive (d : Directive)
  | documentStart
  | documentEnd
  | listStart
  | tableStart
  | blockEnd
  | bracket
  | bracketEnd
  | brace
  | braceEnd
  | item
  | comma
  | key
  | value
  | anchor (name : String)
  | alias (name : String)
  | tag (t : Tag)
  | plain (text : String)
  | quoted (text : String)
  | textEnd
deriving DecidableEq, Repr

/-- A place where a key may have begun: the number of its first token, where that is, and whether
it has to be a key. -/
structure Candidate where
  number : Nat
  line : Nat
  index : Nat
  column : Nat
  required : Bool
deriving Repr

/-- An indentation: the one around it, and whether it is that of a block. -/
structure Indent where
  outer : Int
  block : Bool
deriving Repr

/-- How far the tokens of a text are known. -/
structure Layout where
  place : Place
  tokens : List Token
  /-- The indentation of what is read, which is `-1` outside of all blocks. -/
  indent : Int
  /-- The indentations that hold, innermost first. -/
  indents : List Indent
  /-- How many brackets and braces are open. -/
  depth : Nat
  /-- Whether a key may begin here. -/
  keyAllowed : Bool
  /-- The places where a key may have begun: one for each bracket and brace that is open, innermost
  first, and one outside of all. -/
  candidates : List (Option Candidate)
  /-- The index at which the mark of a value needs no blank behind it. -/
  valueAt : Nat
  /-- Whether the last table in a line was opened by a brace or by the mark of a key. -/
  opened : Bool
  /-- Whether an entry without braces is being read, for each bracket that is open, innermost
  first. -/
  entries : List Bool
deriving Repr

namespace Layout

def start (cs : List Char) : Layout where
  place := .start cs
  tokens := []
  indent := -1
  indents := []
  depth := 0
  keyAllowed := true
  candidates := [none]
  valueAt := 0
  opened := false
  entries := []

def inFlow (x : Layout) : Bool :=
  x.depth != 0

def goTo (x : Layout) (p : Place) : Layout :=
  { x with place := p }

def push (x : Layout) (t : Token) : Layout :=
  { x with tokens := x.tokens ++ [t] }

/-- Puts a token in front of the one with a number. -/
def insert (x : Layout) (number : Nat) (t : Token) : Layout :=
  { x with tokens := x.tokens.take number ++ t :: x.tokens.drop number }

def allowKey (x : Layout) (allowed : Bool) : Layout :=
  { x with keyAllowed := allowed }

/-! ## Indentation -/

def inBlock (x : Layout) : Bool :=
  x.indents.head?.any (·.block)

def outdent (x : Layout) : Layout :=
  match x.indents with
  | [] => x
  | i :: is =>
    let x := { x with indents := is, indent := i.outer }
    if i.block then x.push .blockEnd else x

/-- Ends the indentations that are deeper than a column. -/
def outdentTo (x : Layout) (column : Int) : Layout :=
  if x.inFlow then x
  else x.indents.foldl (fun x _ => if column < x.indent then x.outdent else x) x

/-- Ends the innermost indentations that are not those of blocks. -/
def outdentLoose (x : Layout) : Layout :=
  x.indents.foldl (fun x i => if i.block || x.inBlock then x else x.outdent) x

/-- Begins an indentation by one column that is not that of a block, inside of one that is. -/
def indentLoose (x : Layout) : Layout :=
  if !x.inFlow && x.inBlock then
    { x with indents := ⟨x.indent, false⟩ :: x.indents, indent := x.indent + 1 }
  else x

/-- Begins a block at a column that is indented further, with a token in front of the one with a
number. -/
def indentTo (x : Layout) (column : Nat) (number : Nat) (t : Token) : Layout :=
  if x.inFlow then x
  else
    let x := if x.indent ≤ column && !x.inBlock then x.outdent else x
    if x.indent < column then
      { x with indents := ⟨x.indent, true⟩ :: x.indents, indent := column }.insert number t
    else x

/-! ## Keys -/

def noteKey (x : Layout) : Layout :=
  if x.keyAllowed then
    let p := x.place
    let required := !x.inFlow && x.indent == p.column && x.inBlock
    let candidate : Candidate := ⟨x.tokens.length, p.line, p.index, p.column, required⟩
    { x with candidates := some candidate :: x.candidates.drop 1 }
  else x

/-- Forgets that a key may have begun; one that had to be a key is missed. -/
def forgetKey? (x : Layout) : Option Layout :=
  match x.candidates with
  | some c :: cs => if c.required then none else some { x with candidates := none :: cs }
  | _ => some x

/-- Whether what began at a place cannot be a key any longer: a key stands in one line and has no
more than 1024 characters. -/
def isStale (p : Place) (c : Candidate) : Bool :=
  c.line < p.line || c.index + 1024 < p.index

/-- Forgets the places where a key can no longer have begun. -/
def forgetStale? (x : Layout) : Option Layout :=
  match x.candidates with
  | some c :: cs =>
    if !x.inFlow && isStale x.place c then
      if c.required then none else some { x with candidates := none :: cs }
    else some x
  | _ => some x

/-! ## Brackets and braces -/

def endEntry (x : Layout) : Layout :=
  match x.entries with
  | true :: es => { x with entries := false :: es, opened := false }.push .braceEnd
  | _ => x

/-- Whether the mark of a value here belongs to an entry without braces. -/
def inEntry (x : Layout) : Bool :=
  !x.entries.isEmpty && !x.opened

end Layout

end Discovery.Settings.Yaml
