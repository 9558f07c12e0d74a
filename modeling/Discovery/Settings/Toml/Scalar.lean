import Discovery.Json.Basic
import Discovery.Settings.Toml.Text

/-!
# Scalars of TOML

A scalar that is no text is a truth value, an integer, a decimal, or a date with or without a time.
A date is kept as its text in one spelling.
-/

namespace Discovery.Settings.Toml

/-! ## Numbers -/

/-- Digits without the underscores between them, each of which stands between two digits. -/
def bareDigits? (ok : Char → Bool) : List Char → Option (List Char)
  | [] => none
  | [c] => if ok c then some [c] else none
  | c :: '_' :: cs => if ok c then (bareDigits? ok cs).map (c :: ·) else none
  | c :: cs => if ok c then (bareDigits? ok cs).map (c :: ·) else none

/-- The digits of the whole part of a number, which has no zero in front. -/
def wholeDigits? (cs : List Char) : Option (List Char) := do
  let ds ← bareDigits? Char.isDigit cs
  if ds.length ≠ 1 ∧ ds.head? = some '0' then none else some ds

def splitSign : List Char → List Char × List Char
  | '-' :: cs => (['-'], cs)
  | '+' :: cs => ([], cs)
  | cs => ([], cs)

def based? (base : Nat) (cs : List Char) : Option Int := do
  Text.readInteger? base (← bareDigits? (fun c => Text.digitValue c < base) cs)

def integer? : List Char → Option Int
  | '0' :: 'x' :: cs => based? 16 cs
  | '0' :: 'o' :: cs => based? 8 cs
  | '0' :: 'b' :: cs => based? 2 cs
  | cs => do
    let (sign, cs) := splitSign cs
    Text.readInteger? 10 (sign ++ (← wholeDigits? cs))

def isExponentMark (c : Char) : Bool :=
  c == 'e' || c == 'E'

/-- The digits behind the point of a decimal, with the point. -/
def fraction? : List Char → Option (List Char)
  | [] => some []
  | '.' :: cs => (bareDigits? Char.isDigit cs).map ('.' :: ·)
  | _ => none

def exponent? : List Char → Option (List Char)
  | [] => some []
  | _ :: cs => do
    let (sign, cs) := splitSign cs
    return 'e' :: sign ++ (← bareDigits? Char.isDigit cs)

/-- Reads a decimal, which has a point or an exponent. -/
def decimal? (cs : List Char) : Option Double := do
  let (sign, cs) := splitSign cs
  let s := String.ofList cs
  if s = "inf" ∨ s = "nan" then Double.ofText? (String.ofList (sign ++ cs))
  else
    let size := cs.takeWhile (!isExponentMark ·)
    let whole ← wholeDigits? (size.takeWhile (· ≠ '.'))
    let fraction ← fraction? (size.dropWhile (· ≠ '.'))
    let exponent ← exponent? (cs.dropWhile (!isExponentMark ·))
    guard !(fraction ++ exponent).isEmpty
    let x ← Double.ofText? (String.ofList (sign ++ whole ++ fraction ++ exponent))
    if x.isInfinite then none else some x

/-! ## Dates -/

/-- The number that a given count of digits at the front stands for, and the rest. -/
def fixed? (count : Nat) (cs : List Char) : Option (Nat × List Char) :=
  let ds := cs.take count
  if ds.length = count ∧ ds.all Char.isDigit then some (Decimal.digitsNumber ds, cs.drop count)
  else none

def expect? (c : Char) : List Char → Option (List Char)
  | d :: cs => if d = c then some cs else none
  | [] => none

def daysOf (year month : Nat) : Nat :=
  if month = 2 then
    if year % 4 = 0 ∧ (year % 100 ≠ 0 ∨ year % 400 = 0) then 29 else 28
  else if month ∈ [4, 6, 9, 11] then 30 else 31

/-- Reads the day of a date, and gives its text and the rest. -/
def date? (cs : List Char) : Option (List Char × List Char) := do
  let (year, rest) ← fixed? 4 cs
  let (month, rest) ← fixed? 2 (← expect? '-' rest)
  let (day, rest) ← fixed? 2 (← expect? '-' rest)
  if 1 ≤ month ∧ month ≤ 12 ∧ 1 ≤ day ∧ day ≤ daysOf year month then some (cs.take 10, rest)
  else none

/-- The text of a fraction of a second: nine digits at most, and no zeros behind the first that
could be left out. -/
def secondsFraction (ds : List Char) : List Char :=
  let ds := Text.dropEnd (· == '0') (ds.take 9)
  '.' :: if ds.isEmpty then ['0'] else ds

/-- Reads the seconds of a time of day behind their colon, perhaps with a fraction, and gives their
text and the rest. -/
def seconds? (cs : List Char) : Option (List Char × List Char) := do
  let (second, rest) ← fixed? 2 cs
  guard (second ≤ 60)
  match rest with
  | '.' :: rest =>
    let ds := rest.takeWhile Char.isDigit
    guard !ds.isEmpty
    return (cs.take 2 ++ secondsFraction ds, rest.dropWhile Char.isDigit)
  | rest => return (cs.take 2, rest)

/-- Reads a time of day, which may do without seconds, and gives its text and the rest. -/
def time? (cs : List Char) : Option (List Char × List Char) := do
  let (hour, rest) ← fixed? 2 cs
  let (minute, rest) ← fixed? 2 (← expect? ':' rest)
  guard (hour ≤ 23 ∧ minute ≤ 59)
  match rest with
  | ':' :: rest =>
    let (seconds, rest) ← seconds? rest
    return (cs.take 5 ++ ':' :: seconds, rest)
  | rest => return (cs.take 5, rest)

/-- Reads how far a time is from the universal one, and gives its text. -/
def offset? : List Char → Option (List Char)
  | [] => some []
  | ['Z'] | ['z'] => some ['Z']
  | c :: cs => do
    let (hour, rest) ← fixed? 2 cs
    let (minute, rest) ← fixed? 2 (← expect? ':' rest)
    if (c = '+' ∨ c = '-') ∧ hour ≤ 23 ∧ minute ≤ 59 ∧ rest.isEmpty then
      some (if hour = 0 ∧ minute = 0 then "+00:00".toList else c :: cs)
    else none

def moment? (cs : List Char) : Option (List Char) :=
  match date? cs with
  | some (date, []) => some date
  | some (date, c :: rest) =>
    if c = 'T' ∨ c = 't' ∨ c = ' ' then do
      let (time, rest) ← time? rest
      return date ++ 'T' :: time ++ (← offset? rest)
    else none
  | none =>
    match time? cs with
    | some (time, []) => some time
    | _ => none

/-! ## Scalars -/

def isScalarChar (c : Char) : Bool :=
  c.isAlphanum || c ∈ ['+', '-', '_', '.', ':']

/-- The characters of a scalar that is no text, and the rest.  A date and a time may have a blank
between them. -/
def scalarChars (cs : List Char) : List Char × List Char :=
  let taken := cs.takeWhile isScalarChar
  match cs.dropWhile isScalarChar with
  | ' ' :: c :: rest =>
    if c.isDigit && (date? taken).isSome && taken.length == 10 then
      (taken ++ ' ' :: (c :: rest).takeWhile isScalarChar, (c :: rest).dropWhile isScalarChar)
    else (taken, ' ' :: c :: rest)
  | rest => (taken, rest)

def scalarValue? (cs : List Char) : Option String :=
  let s := String.ofList cs
  if s = "true" ∨ s = "false" then some s
  else match integer? cs with
    | some n => some (Json.intText n)
    | none =>
      match decimal? cs with
      | some x => some x.plain
      | none => (moment? cs).map String.ofList

end Discovery.Settings.Toml
