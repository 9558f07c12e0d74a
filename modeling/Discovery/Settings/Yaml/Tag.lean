import Discovery.Settings.Yaml.Place
import Discovery.Text.Digits

/-!
# Tags and directives of YAML

A tag behind an exclamation mark says what type a node has.  Its handle stands for the beginning of
a name; directives in front of a document say what handles stand for.  An anchor names a node, and
an alias stands for a node that is named.
-/

namespace Discovery.Settings.Yaml

open Text (isSpace)

/-! ## Escapes -/

/-- How many bytes a character has whose encoding begins with a byte. -/
def encodedLength? (byte : Nat) : Option Nat :=
  if byte < 0x80 then some 1
  else if 0xc0 ≤ byte ∧ byte < 0xe0 then some 2
  else if 0xe0 ≤ byte ∧ byte < 0xf0 then some 3
  else if 0xf0 ≤ byte ∧ byte < 0xf8 then some 4
  else none

def escapedByte? : List Char → Option (Nat × List Char)
  | '%' :: a :: b :: cs =>
    if Text.areDigits 16 [a, b] then some (Text.digitsValue 16 [a, b], cs) else none
  | _ => none

/-- Reads further escaped bytes, and gives the number that all of them are as digits. -/
def escapedTail? : Nat → Nat → List Char → Option (Nat × List Char)
  | 0, code, cs => some (code, cs)
  | n + 1, code, cs => do
    let (byte, cs) ← escapedByte? cs
    if 0x80 ≤ byte ∧ byte < 0xc0 then escapedTail? n (code * 256 + byte) cs else none

/-- Reads an escaped character.  Its number consists of the bytes of its encoding. -/
def escapedChar? (cs : List Char) : Option (Char × List Char) := do
  let (byte, cs) ← escapedByte? cs
  let (code, cs) ← escapedTail? ((← encodedLength? byte) - 1) byte cs
  if code.isValidChar then some (Char.ofNat code, cs) else none

/-! ## Characters -/

def isNameMark (c : Char) : Bool :=
  c.isAlphanum || c == '-' ||
    c ∈ ['#', ';', '/', '?', ':', '@', '&', '=', '+', '$', ',', '_', '.', '!', '~', '*', '\'',
      '(', ')', '[', ']', '%']

def isTagMark (c : Char) : Bool :=
  isNameMark c && !isFlowMark c && c != '!'

def isAnchorMark (c : Char) : Bool :=
  !isSpace c && !isBreak c && !isFlowMark c && c != '\ufeff'

/-- Reads characters of a class, some of them escaped; those that were read are last first. -/
def escapedRun? (ok : Char → Bool) :
    Nat → List Char → List Char → Option (List Char × List Char)
  | 0, _, _ => none
  | fuel + 1, taken, cs =>
    match cs with
    | c :: rest =>
      if !ok c then some (taken, cs)
      else if c = '%' then do
        let (d, rest) ← escapedChar? cs
        escapedRun? ok fuel (d :: taken) rest
      else escapedRun? ok fuel (c :: taken) rest
    | [] => some (taken, [])

def run? (ok : Char → Bool) (cs : List Char) : Option (List Char × List Char) := do
  let (taken, rest) ← escapedRun? ok (cs.length + 1) [] cs
  return (taken.reverse, rest)

/-! ## Tags -/

/-- A tag as it is written: its handle and what follows. -/
structure Tag where
  handle : String
  suffix : String
deriving DecidableEq, Repr, Inhabited

/-- Reads an exclamation mark, a word, and an exclamation mark if there is one. -/
def handle? : List Char → Option (List Char × List Char)
  | '!' :: cs =>
    let word := cs.takeWhile isWordChar
    match cs.dropWhile isWordChar with
    | '!' :: rest => some ('!' :: word ++ ['!'], rest)
    | rest => some ('!' :: word, rest)
  | _ => none

/-- Whether a handle has an exclamation mark at both ends. -/
def isClosed (handle : List Char) : Bool :=
  2 ≤ handle.length && handle.getLast? == some '!'

def tagChars? (cs : List Char) : Option (Tag × List Char) :=
  match cs with
  | '!' :: '<' :: cs => do
    let (name, rest) ← run? isNameMark cs
    match rest with
    | '>' :: rest => return (⟨"", String.ofList name⟩, rest)
    | _ => none
  | _ => do
    let (handle, rest) ← handle? cs
    let (name, rest) ← run? isTagMark rest
    if isClosed handle then
      if name.isEmpty then none else return (⟨String.ofList handle, String.ofList name⟩, rest)
    else
      let suffix := handle.drop 1 ++ name
      if suffix.isEmpty then return (⟨"", "!"⟩, rest)
      else return (⟨"!", String.ofList suffix⟩, rest)

/-- Reads a tag at a place, inside brackets and braces (`flow`) or not. -/
def tag? (flow : Bool) (p : Place) : Option (Tag × Place) := do
  let (t, rest) ← tagChars? p.rest
  let q := p.take (p.rest.length - rest.length)
  if endsWord rest || flow && rest.head?.any isFlowMark then return (t, q) else none

/-- Reads the name of an anchor or an alias behind its sign. -/
def anchorName? (p : Place) : Option (String × Place) :=
  let name := p.rest.takeWhile isAnchorMark
  if name.isEmpty then none else some (String.ofList name, p.take name.length)

/-! ## Directives -/

/-- What a directive says: a version of the language, or what a handle stands for.  A directive of
another kind says nothing. -/
inductive Directive where
  | version
  | handle (handle meaning : String)
deriving DecidableEq, Repr, Inhabited

/-- Reads a number of a version, which has nine digits at most. -/
def versionNumber? (cs : List Char) : Option (List Char) :=
  let size := (cs.takeWhile Char.isDigit).length
  if 1 ≤ size ∧ size ≤ 9 then some (cs.drop size) else none

def meaning? (cs : List Char) : Option (List Char × List Char) :=
  match cs with
  | c :: _ => if c == '!' || isTagMark c then run? isNameMark cs else none
  | [] => none

/-- Reads a directive behind its percent sign. -/
def directiveChars? (cs : List Char) : Option (Directive × List Char) :=
  let word := cs.takeWhile isWordChar
  let rest := cs.dropWhile isWordChar
  if word.isEmpty || !endsWord rest then none
  else if String.ofList word = "YAML" then
    match versionNumber? (rest.dropWhile isSpace) with
    | some ('.' :: rest) => (versionNumber? rest).map (Directive.version, ·)
    | _ => none
  else if String.ofList word = "TAG" then do
    let (handle, rest) ← handle? (rest.dropWhile isSpace)
    if isClosed handle || handle == ['!'] then
      let (meaning, rest) ← meaning? (rest.dropWhile isSpace)
      if endsWord rest then
        return (.handle (String.ofList handle) (String.ofList meaning), rest)
      else none
    else none
  else some (.handle "" "", rest.drop (restOfLine rest).length)

def directive? (p : Place) : Option (Directive × Place) := do
  let q := p.take 1
  let (d, rest) ← directiveChars? q.rest
  let q ← (q.take (q.rest.length - rest.length)).pastGap?
  if q.atLineEnd then return (d, q.nextLine) else none

end Discovery.Settings.Yaml
