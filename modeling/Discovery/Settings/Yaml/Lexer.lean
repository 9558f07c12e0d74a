import Discovery.Settings.Yaml.Literal
import Discovery.Settings.Yaml.Plain
import Discovery.Settings.Yaml.Quoted
import Discovery.Settings.Yaml.Token

/-!
# Reading the tokens of YAML

The character at the beginning of a token says which one it is.  Which tokens may stand where
depends on the indentation and on the brackets and braces that are open.
-/

namespace Discovery.Settings.Yaml

open Text (isSpace)

namespace Layout

/-! ## Blanks -/

/-- Goes on behind blanks, line breaks and comments.  A line with something in it is not indented
by tabs inside a block. -/
def skipBlanks? : Nat → Layout → Option Layout
  | 0, _ => none
  | fuel + 1, x =>
    match x.place.rest with
    | c :: cs =>
      if isBreak c then
        let x := x.goTo x.place.nextLine
        skipBlanks? fuel (if x.inFlow then x else x.allowKey true)
      else if c = '\t' ∧ x.place.fresh ∧ !x.indents.isEmpty ∧ x.place.column < x.indent then do
        let p ← x.place.pastGap?
        if p.atLineEnd then skipBlanks? fuel (x.goTo p) else none
      else if isSpace c then skipBlanks? fuel (x.goTo (x.place.skip 1))
      else if c = '#' then skipBlanks? fuel (x.goTo (x.place.take (restOfLine (c :: cs)).length))
      else some x
    | [] => some x

/-- Goes on behind blanks, line breaks and comments. -/
def toToken? (x : Layout) : Option Layout :=
  x.skipBlanks? (x.place.rest.length + 1)

/-- Goes on behind some characters, and the blanks and the comment that follow. -/
def pass? (x : Layout) (n : Nat) : Option Layout :=
  ((x.place.take n).pastGap?).map x.goTo

/-! ## Documents -/

def endBlocks? (x : Layout) : Option Layout :=
  ((x.outdentTo (-1)).forgetKey?).map (·.allowKey false)

/-- Reads the sign for the beginning or the end of a document. -/
def marker? (x : Layout) (t : Token) : Option Layout := do
  let x ← x.endBlocks?
  return (x.goTo (x.place.take 3)).push t

/-- Reads the sign for the end of a document, behind which nothing stands in its line. -/
def documentEnd? (x : Layout) : Option Layout := do
  let x ← (← x.marker? .documentEnd).pass? 0
  if x.place.atLineEnd then return x else none

def directiveToken? (x : Layout) : Option Layout := do
  let x ← x.endBlocks?
  let (d, p) ← directive? x.place
  return (x.goTo p).push (.directive d)

/-! ## Scalars, tags and anchors -/

/-- Reads what may be a key or stand in front of one. -/
def piece? (x : Layout) (read : Place → Option (Token × Place)) : Option Layout := do
  let x := x.noteKey.allowKey false
  let (t, p) ← read x.place
  return (x.goTo p).push t

def plainToken? (x : Layout) : Option Layout := do
  let x := (x.noteKey.allowKey false).outdentLoose
  let (s, p) ← plain? x.inFlow (x.indent + 1) x.place
  return ((x.goTo p).allowKey p.fresh).push (.plain s)

/-- Reads a scalar in quotes.  The mark of a value behind it needs no blank. -/
def quotedToken? (x : Layout) : Option Layout := do
  let x ← x.piece? fun p => (quoted? x.inFlow x.indent p).map fun r => (.quoted r.1, r.2)
  let x ← x.toToken?
  return { x with valueAt := x.place.index }

def literalToken? (x : Layout) : Option Layout := do
  let x := (x.noteKey.allowKey true).outdentLoose
  let (s, p) ← literal? x.indent x.place
  return (x.goTo p).push (.quoted s)

def anchorToken? (x : Layout) (t : String → Token) : Option Layout :=
  x.piece? fun p => (anchorName? (p.take 1)).map fun r => (t r.1, r.2)

def tagToken? (x : Layout) : Option Layout :=
  x.piece? fun p => (tag? x.inFlow p).map fun r => (.tag r.1, r.2)

/-! ## Brackets and braces -/

/-- How many brackets and braces may be open at a time. -/
def depthLimit : Nat := 255

def open? (x : Layout) (t : Token) : Option Layout := do
  let x := x.noteKey.indentLoose
  guard (x.depth < depthLimit)
  let x := { x with candidates := none :: x.candidates, depth := x.depth + 1, keyAllowed := true }
  let x := if t = .brace then { x with opened := true }
    else { x with entries := false :: x.entries }
  return (← x.pass? 1).push t

def close? (x : Layout) (t : Token) : Option Layout := do
  let x ← x.forgetKey?
  let x :=
    if x.inFlow then { x with depth := x.depth - 1, candidates := x.candidates.drop 1 } else x
  let x := x.allowKey false
  let x := if t = .bracketEnd then { x.endEntry with entries := x.entries.drop 1 } else x
  let x ← x.pass? 1
  let x := if x.inFlow then { x with valueAt := x.place.index } else x
  return x.push t

def comma? (x : Layout) : Option Layout := do
  let x ← x.forgetKey?
  return (← ((x.allowKey true).endEntry).pass? 1).push .comma

/-! ## Items, keys and values -/

def item? (x : Layout) : Option Layout := do
  guard (!x.inFlow && x.keyAllowed)
  let column := x.place.column
  let x := x.indentTo column x.tokens.length .listStart
  let (gap, p) ← (x.place.take 1).gap? true
  guard !(gap.tab && p.rest.head? == some '-' && endsWord (p.rest.drop 1))
  let x := x.goTo p
  let x := if p.rest.head?.any fun c => isBreak c || isFlowMark c then x.indentLoose else x
  let x ← x.forgetKey?
  return (x.allowKey true).push .item

/-- Goes on behind blanks without tabs, line breaks and comments, of which there is a blank or a
line break at least. -/
def toKey? : Nat → Bool → Layout → Option Layout
  | 0, _, _ => none
  | fuel + 1, parted, x =>
    match x.place.rest with
    | ' ' :: _ => toKey? fuel true (x.goTo (x.place.skip 1))
    | '#' :: _ => toKey? fuel parted (x.goTo (x.place.take (restOfLine x.place.rest).length))
    | c :: _ =>
      if isBreak c then
        let x := x.goTo x.place.nextLine
        toKey? fuel true (if x.inFlow then x else x.allowKey true)
      else if parted && c != '\t' then some x
      else none
    | [] => if parted then some x else none

def key? (x : Layout) : Option Layout := do
  guard (x.inFlow || x.keyAllowed)
  let x := if x.inFlow then { x with opened := true }
    else x.indentTo x.place.column x.tokens.length .tableStart
  let x ← x.forgetKey?
  let x := (x.allowKey !x.inFlow).goTo (x.place.take 1)
  return (← x.toKey? (x.place.rest.length + 1) false).push .key

/-- Goes on behind the mark of a value.  A word is not parted from it by tabs alone. -/
def passValue? (x : Layout) : Option Layout :=
  let p := x.place.take 1
  if p.rest.head? = some '\t' then do
    let (gap, p) ← p.gap? true
    if !gap.space && p.rest.head?.any isWordChar then none else return x.goTo p
  else some (x.goTo p)

def value? (x : Layout) : Option Layout := do
  let line := x.place.line
  let column := x.place.column
  let inEntry := x.inEntry
  let x := if inEntry then { x with entries := true :: x.entries.drop 1 } else x
  let x ← x.passValue?
  match x.candidates with
  | some c :: cs => do
    let x := x.insert c.number .key
    guard !(inEntry && c.line < line)
    let x := if inEntry then x.insert c.number .brace else x
    let x := (x.indentTo c.column c.number .tableStart).indentLoose
    return ({ x with candidates := none :: cs }.allowKey false).push .value
  | _ => do
    let x := if inEntry then x.push .brace else x
    guard (x.inFlow || x.keyAllowed)
    let x := (x.indentTo column x.tokens.length .tableStart).indentLoose
    return (x.allowKey !x.inFlow).push .value

/-- Reads the mark of a value inside brackets and braces with no blank behind it. -/
def tightValue? (x : Layout) : Option Layout :=
  if x.place.index != x.valueAt && (x.place.rest.drop 1).head?.any fun c => c == '[' || c == '\x7b'
  then none
  else x.value?

/-! ## All tokens -/

def readToken? (x : Layout) (c : Char) (cs : List Char) : Option Layout :=
  if c = '[' then x.open? .bracket
  else if c = '\x7b' then x.open? .brace
  else if c = ']' then x.close? .bracketEnd
  else if c = '\x7d' then x.close? .braceEnd
  else if c = ',' then x.comma?
  else if c = '-' ∧ endsWord cs then x.item?
  else if c = '?' ∧ endsWord cs then x.key?
  else if c = ':' ∧ endsWord cs then x.value?
  else if c = ':' ∧ x.inFlow ∧ (cs.head?.any isFlowMark ∨ x.place.index = x.valueAt) then
    x.tightValue?
  else if c = '*' then x.anchorToken? .alias
  else if c = '&' then x.anchorToken? .anchor
  else if c = '!' then x.tagToken?
  else if (c = '|' ∨ c = '>') ∧ !x.inFlow then x.literalToken?
  else if c = '\'' ∨ c = '"' then x.quotedToken?
  else if c = '%' ∨ c = '@' ∨ c = '\x60' then none
  else x.plainToken?

def finish? (x : Layout) : Option Layout := do
  guard !(x.candidates.any fun c => c.any (·.required))
  return ({ x with candidates := x.candidates.map fun _ => none }.outdentTo (-1)).push .textEnd

/-- Reads a token behind blanks.  There is none behind the end of the text. -/
def next? (x : Layout) : Option Layout := do
  let x ← x.toToken?
  let x ← x.forgetStale?
  let x := x.outdentTo x.place.column
  match x.place.rest with
  | [] => x.finish?
  | c :: cs =>
    if x.place.column = 0 ∧ c = '%' then x.directiveToken?
    else if x.place.column = 0 ∧ startsMarker '-' x.place.rest then x.marker? .documentStart
    else if x.place.column = 0 ∧ startsMarker '.' x.place.rest then x.documentEnd?
    else if x.place.column < x.indent then none
    else x.readToken? c cs

def all? : Nat → Layout → Option Layout
  | 0, _ => none
  | fuel + 1, x => do
    let x ← x.next?
    if x.tokens.getLast? = some .textEnd then return x else all? fuel x

end Layout

/-- The tokens of a text.  A null character ends it. -/
def tokens? (text : String) : Option (List Token) := do
  let cs := text.toList.takeWhile (· ≠ '\x00')
  let x ← Layout.all? (cs.length + 2) (.start cs)
  return x.tokens

end Discovery.Settings.Yaml
