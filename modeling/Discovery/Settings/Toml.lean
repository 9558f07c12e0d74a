import Discovery.Settings.Toml.Scalar
import Discovery.Settings.Toml.Tree

/-!
# Settings in TOML

A settings file may hold a TOML document: lines with a name and a value, and headings of tables.
-/

namespace Discovery.Settings.Toml

/-! ## Names -/

def part? (cs : List Char) : Option (String × List Char) :=
  match cs with
  | '"' :: cs => basic? [] cs
  | '\'' :: cs => literal? [] cs
  | _ =>
    let name := cs.takeWhile Value.isNameChar
    if name.isEmpty then none
    else some (String.ofList name, cs.dropWhile Value.isNameChar)

/-- Reads a name, which may have points and blanks between its parts, and gives the rest behind the
blanks. -/
def name? : Nat → List Char → Option (List String × List Char)
  | 0, _ => none
  | fuel + 1, cs => do
    let (k, rest) ← part? (cs.dropWhile Text.isSpace)
    match rest.dropWhile Text.isSpace with
    | '.' :: rest => do
      let (ks, rest) ← name? fuel rest
      return (k :: ks, rest)
    | rest => return ([k], rest)

/-! ## Values -/

/-- The rest behind blanks, line breaks and comments.  A comment holds no control characters. -/
def skipLines? (cs : List Char) : Option (List Char) :=
  skipFrom? false cs
where
  /-- The rest behind blanks, line breaks and comments, from inside a comment or not. -/
  skipFrom? (comment : Bool) : List Char → Option (List Char)
    | [] => some []
    | '\n' :: cs | '\r' :: '\n' :: cs => skipFrom? false cs
    | c :: cs =>
      if comment then (if isControl c then none else skipFrom? true cs)
      else if Text.isSpace c then skipFrom? false cs
      else if c = '#' then skipFrom? true cs
      else some (c :: cs)

/-- How many lists and tables in braces may be open at a time. -/
def depthLimit : Nat := 80

mutual

/-- Reads a value, inside of which a number of lists and tables may be open at a time. -/
def value? : Nat → Nat → List Char → Option (Value × List Char)
  | 0, _, _ => none
  | fuel + 1, depth, cs =>
    match cs, depth with
    | '[' :: _, 0 | '\x7b' :: _, 0 => none
    | '[' :: cs, depth + 1 => do
      let rest ← items? fuel depth (← skipLines? cs)
      return (.list, rest)
    | '\x7b' :: cs, depth + 1 => do
      let (es, rest) ← members? fuel depth [] (← skipLines? cs)
      return (.table (entriesValue es), rest)
    | '"' :: _, _ | '\'' :: _, _ => (text? cs).map fun t => (.text t.1, t.2)
    | _, _ =>
      let (taken, rest) := scalarChars cs
      (scalarValue? taken).map fun s => (.text s, rest)

/-- Reads the items of a list, of which nothing is kept, and its end. -/
def items? : Nat → Nat → List Char → Option (List Char)
  | 0, _, _ => none
  | _ + 1, _, ']' :: cs => some cs
  | fuel + 1, depth, cs => do
    let (_, rest) ← value? fuel depth cs
    match ← skipLines? rest with
    | ',' :: cs => items? fuel depth (← skipLines? cs)
    | ']' :: cs => return cs
    | _ => none

/-- Reads the members of a table in braces behind those that were read, and its end.  Behind the
last one there may be a comma too. -/
def members? : Nat → Nat → Entries → List Char → Option (Entries × List Char)
  | 0, _, _, _ => none
  | _ + 1, _, es, '\x7d' :: cs => some (es, cs)
  | fuel + 1, depth, es, cs => do
    let (name, rest) ← name? fuel cs
    let (v, rest) ← value? fuel depth (← skipLines? (← expect? '=' (← skipLines? rest)))
    let es ← es.set? v name
    match ← skipLines? rest with
    | ',' :: cs => members? fuel depth es (← skipLines? cs)
    | '\x7d' :: cs => return (es, cs)
    | _ => none

end

/-! ## Documents -/

/-- What was read of a document: its tables, and the path of the last heading. -/
structure Document where
  entries : Entries
  heading : List String

def heading? (d : Document) (cs : List Char) : Option (Document × List Char) := do
  let (next, cs) := match cs with
    | '[' :: cs => (true, cs)
    | cs => (false, cs)
  let (path, rest) ← name? (cs.length + 1) cs
  let rest ← expect? ']' rest
  let rest ← if next then expect? ']' rest else some rest
  return (⟨← d.entries.open? next path, path⟩, rest)

def assignment? (d : Document) (cs : List Char) : Option (Document × List Char) := do
  let (name, rest) ← name? (cs.length + 1) cs
  let (v, rest) ← value? (2 * cs.length + 2) depthLimit
    ((← expect? '=' rest).dropWhile Text.isSpace)
  return ({ d with entries := ← Entries.within? (Entries.set? v name) d.heading d.entries }, rest)

/-- The rest from the end of a line on, before which there may be a comment. -/
def lineRest? (cs : List Char) : Option (List Char) :=
  match cs.dropWhile Text.isSpace with
  | [] => some []
  | '#' :: cs => some ('#' :: cs)
  | cs => if startsBreak cs then some cs else none

def lines? : Nat → Document → List Char → Option Document
  | 0, _, _ => none
  | fuel + 1, d, cs =>
    match skipLines? cs with
    | none => none
    | some [] => some d
    | some ('[' :: cs) => do
      let (d, rest) ← heading? d cs
      lines? fuel d (← lineRest? rest)
    | some cs => do
      let (d, rest) ← assignment? d cs
      lines? fuel d (← lineRest? rest)

/-- Reads the settings of a TOML file.  A second mark of the byte order in front of it does not
count either. -/
def read? (text : String) : Option Value := do
  let cs := Text.dropOrderMark text.toList
  let d ← lines? (cs.length + 1) ⟨[], []⟩ cs
  return .table (entriesValue d.entries)

end Discovery.Settings.Toml
