import Discovery.Settings.Yaml.Place

/-!
# Plain scalars of YAML

A scalar without quotes ends in front of a comment or of the mark of a value.  It may go on in
further lines that are indented.
-/

namespace Discovery.Settings.Yaml

open Text (isSpace)

/-- The characters of a plain scalar up to a blank or its end. -/
def plainWord (flow : Bool) : List Char → List Char
  | [] => []
  | c :: cs =>
    let ends := isSpace c || isBreak c || flow && isFlowMark c ||
      c == ':' && (endsWord cs || flow && cs.head?.any isFlowMark)
    if ends then [] else c :: plainWord flow cs

/-- Reads the blanks in a line, last first, or the line breaks between two words of a plain scalar.
In a line that goes on no tab stands where it is to be indented. -/
def plainPause? (indent : Int) : Nat → List Char → Nat → Place →
    Option (List Char × Nat × Place)
  | 0, _, _, _ => none
  | fuel + 1, blanks, breaks, p =>
    match p.rest with
    | c :: _ =>
      if isBreak c then plainPause? indent fuel [] (breaks + 1) p.nextLine
      else if isSpace c then
        if breaks = 0 then plainPause? indent fuel (c :: blanks) 0 (p.skip 1)
        else if c = '\t' ∧ p.column < indent then do
          let p ← p.pastGap?
          if p.atLineEnd then plainPause? indent fuel blanks breaks p else none
        else plainPause? indent fuel blanks breaks (p.skip 1)
      else some (blanks, breaks, p)
    | [] => some (blanks, breaks, p)

/-- Reads the words of a plain scalar behind those that were read, which are last first, and behind
the text of a pause. -/
def plainWords? (flow : Bool) (indent : Int) :
    Nat → List Char → List Char → Place → Option (List Char × Place)
  | 0, _, _, _ => none
  | fuel + 1, taken, pause, p =>
    if p.atMarker || p.rest.head? == some '#' then some (taken, p)
    else if flow && p.rest.head? == some '-' && (p.rest.drop 1).head?.any isFlowMark then none
    else
      let word := plainWord flow p.rest
      let taken := if word.isEmpty then taken else word.reverse ++ pause.reverse ++ taken
      let p := p.take word.length
      if p.rest.isEmpty || !endsWord p.rest then some (taken, p)
      else do
        let (blanks, breaks, p) ← plainPause? indent (p.rest.length + 1) [] 0 p
        if !flow && p.column < indent then return (taken, p)
        else
          let pause := if breaks = 0 then blanks.reverse else foldedBreaks breaks
          plainWords? flow indent fuel taken pause p

/-- Reads a plain scalar at a place, inside brackets and braces (`flow`) or not. -/
def plain? (flow : Bool) (indent : Int) (p : Place) : Option (String × Place) := do
  guard !(flow && p.column < indent)
  let (taken, q) ← plainWords? flow indent (p.rest.length + 1) [] [] p
  guard !taken.isEmpty
  return (String.ofList taken.reverse, q)

end Discovery.Settings.Yaml
