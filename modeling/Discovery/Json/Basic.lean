import Discovery.Table
import Discovery.Decimal.Layout

/-!
# JSON values

A JSON value, and its compact text: no blanks, and the members of an object in the order in which
they are listed.

* `chars`: the text of a value.
-/

namespace Discovery

/-- A number: an integer of 64 bits, with or without a sign, or a double. -/
inductive Json.Number where
  | int (n : Int)
  | double (x : Double)
deriving DecidableEq, Repr, Inhabited

inductive Json where
  | null
  | bool (b : Bool)
  | number (n : Json.Number)
  | text (s : String)
  | array (items : List Json)
  | object (members : List (String × Json))
deriving Repr, Inhabited

namespace Json

/-! ## Text -/

/-- The digits of a number below sixteen. -/
def hexDigit (n : Nat) : Char :=
  if n < 10 then Char.ofNat (48 + n) else Char.ofNat (87 + n)

/-- How one character stands in a JSON text. -/
def escapeChar (c : Char) : List Char :=
  if c = '"' then ['\\', '"']
  else if c = '\\' then ['\\', '\\']
  else if c = '\n' then ['\\', 'n']
  else if c = '\r' then ['\\', 'r']
  else if c = '\t' then ['\\', 't']
  else if c = '\x08' then ['\\', 'b']
  else if c = '\x0c' then ['\\', 'f']
  else if c.toNat < 0x20 then
    ['\\', 'u', '0', '0', hexDigit (c.toNat / 16), hexDigit (c.toNat % 16)]
  else [c]

def textChars (s : String) : List Char :=
  '"' :: s.toList.flatMap escapeChar ++ ['"']

def intText (n : Int) : String :=
  Decimal.signText (n < 0) ++ Decimal.digitsText n.natAbs

/-- The text of a number; a double that is no number, or infinite, has none and is null. -/
def Number.text : Number → String
  | .int n => intText n
  | .double x => if x.isNaN || x.isInfinite then "null" else x.json

mutual

/-- The compact text of a value. -/
def chars : Json → List Char
  | .null => ['n', 'u', 'l', 'l']
  | .bool true => ['t', 'r', 'u', 'e']
  | .bool false => ['f', 'a', 'l', 's', 'e']
  | .number n => n.text.toList
  | .text s => textChars s
  | .array [] => ['[', ']']
  | .array (j :: js) => '[' :: j.chars ++ itemsChars js
  | .object [] => ['\x7b', '\x7d']
  | .object ((k, j) :: ms) => '\x7b' :: textChars k ++ ':' :: j.chars ++ membersChars ms

/-- The items behind the first one, and the closing bracket. -/
def itemsChars : List Json → List Char
  | [] => [']']
  | j :: js => ',' :: j.chars ++ itemsChars js

/-- The members behind the first one, and the closing brace. -/
def membersChars : List (String × Json) → List Char
  | [] => ['\x7d']
  | (k, j) :: ms => ',' :: textChars k ++ ':' :: j.chars ++ membersChars ms

end

def render (j : Json) : String :=
  String.ofList j.chars

def ofTexts (t : Table String) : Json :=
  .object (t.entries.map fun e => (e.1, .text e.2))

end Json

end Discovery
