import Discovery.Settings.Yaml.Place
import Discovery.Text.Digits

/-!
# Quoted scalars of YAML

A scalar stands in double quotes, where a backslash escapes, or in single quotes, where a quote is
written twice.  It may go on in further lines, which have to be indented.
-/

namespace Discovery.Settings.Yaml

open Text (isSpace charOfHex?)

def escaped? (c : Char) : Option Char :=
  [('0', '\x00'), ('a', '\x07'), ('b', '\x08'), ('t', '\t'), ('\t', '\t'), ('n', '\n'),
   ('v', '\x0b'), ('f', '\x0c'), ('r', '\r'), ('e', '\x1b'), (' ', ' '), ('"', '"'), ('/', '/'),
   ('\\', '\\'), ('N', '\u0085'), ('_', '\u00a0'), ('L', '\u2028'), ('P', '\u2029')].lookup c

/-- Reads the characters of a scalar in single quotes up to a blank, a line break or its end; those
that were read are last first. -/
def singleWord (taken : List Char) : List Char → List Char × List Char
  | '\'' :: '\'' :: cs => singleWord ('\'' :: taken) cs
  | c :: cs =>
    if c = '\'' || isSpace c || isBreak c then (taken, c :: cs) else singleWord (c :: taken) cs
  | [] => (taken, [])

/-- Reads the characters of a scalar in double quotes up to a blank, a line break, a backslash in
front of a line break, or its end; those that were read are last first. -/
def doubleWord? (taken : List Char) : List Char → Option (List Char × List Char)
  | '\\' :: 'x' :: a :: b :: cs => do
    doubleWord? ((← charOfHex? [a, b]) :: taken) cs
  | '\\' :: 'u' :: a :: b :: c :: d :: cs => do
    doubleWord? ((← charOfHex? [a, b, c, d]) :: taken) cs
  | '\\' :: 'U' :: a :: b :: c :: d :: e :: f :: g :: h :: cs => do
    doubleWord? ((← charOfHex? [a, b, c, d, e, f, g, h]) :: taken) cs
  | '\\' :: c :: cs =>
    if isBreak c then some (taken, '\\' :: c :: cs)
    else do doubleWord? ((← escaped? c) :: taken) cs
  | c :: cs =>
    if c = '"' || isSpace c || isBreak c then some (taken, c :: cs)
    else if c = '\\' then none
    else doubleWord? (c :: taken) cs
  | [] => some (taken, [])

/-- Reads the characters of a scalar in quotes up to a blank, a line break or its end. -/
def quotedWord? (double : Bool) (taken cs : List Char) : Option (List Char × List Char) :=
  if double then doubleWord? taken cs else some (singleWord taken cs)

/-- What stands between two words of a scalar: the blanks in a line, last first, or the line breaks,
of which the first may stand behind a backslash. -/
structure Pause where
  blanks : List Char
  breaks : Nat
  escaped : Bool

namespace Pause

def ended (s : Pause) : Bool :=
  s.escaped || s.breaks != 0

/-- The text that a pause comes to. -/
def text (s : Pause) : List Char :=
  if s.escaped then List.replicate s.breaks '\n'
  else if s.breaks = 0 then s.blanks.reverse
  else foldedBreaks s.breaks

end Pause

/-- Reads a pause in a scalar in quotes.  A tab does not indent a line. -/
def quotedPause? (indent : Int) : Nat → Pause → Place → Option (Pause × Place)
  | 0, _, _ => none
  | fuel + 1, s, p =>
    match p.rest with
    | c :: _ =>
      if isBreak c then
        quotedPause? indent fuel { s with blanks := [], breaks := s.breaks + 1 } p.nextLine
      else if isSpace c then
        if !s.ended then quotedPause? indent fuel { s with blanks := c :: s.blanks } (p.skip 1)
        else if c = '\t' ∧ p.column < indent then none
        else quotedPause? indent fuel s (p.skip 1)
      else some (s, p)
    | [] => some (s, p)

/-- Reads a scalar behind its first quote, up to the place behind the last; what was read is last
first. -/
def quotedWords? (double : Bool) (indent : Int) :
    Nat → List Char → Place → Option (List Char × Place)
  | 0, _, _ => none
  | fuel + 1, taken, p =>
    if p.atMarker || p.rest.isEmpty || p.column < indent then none
    else do
      let (taken, rest) ← quotedWord? double taken p.rest
      let p := p.take (p.rest.length - rest.length)
      match p.rest with
      | '\'' :: _ | '"' :: _ => return (taken, p.take 1)
      | cs =>
        let escaped := cs.head? == some '\\'
        let p := if escaped then (p.take 1).nextLine else p
        let (s, p) ← quotedPause? indent (p.rest.length + 1) ⟨[], 0, escaped⟩ p
        quotedWords? double indent fuel (s.text.reverse ++ taken) p

/-- Reads a scalar in quotes at a place, inside brackets and braces (`flow`) or not.  In its last
line there may follow the mark of a value, if the scalar is a key, or one that goes on in brackets
and braces. -/
def quoted? (flow : Bool) (indent : Int) (p : Place) : Option (String × Place) := do
  let double := p.rest.head? == some '"'
  let (taken, q) ← quotedWords? double indent (p.rest.length + 1) [] (p.take 1)
  let q ← q.pastGap?
  let goesOn : Bool := match q.rest with
    | ':' :: _ => flow || p.line == q.line
    | c :: _ => isBreak c || flow && c ∈ [',', ']', '\x7d']
    | [] => true
  guard goesOn
  return (String.ofList taken.reverse, q)

end Discovery.Settings.Yaml
