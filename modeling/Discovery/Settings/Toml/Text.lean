import Discovery.Settings.Value
import Discovery.Text.Digits

/-!
# Texts of TOML

A text stands in double quotes, where a backslash escapes, or in single quotes, where nothing does.
Three quotes begin a text of many lines; a line break right behind them does not count.  A line
break is a line feed, perhaps with a carriage return in front of it; a carriage return stands
nowhere else.
-/

namespace Discovery.Settings.Toml

/-- Whether a character may not stand in a text as it is. -/
def isControl (c : Char) : Bool :=
  c.toNat < 32 && c != '\t' || c.toNat == 127

def escaped? (c : Char) : Option Char :=
  [('b', '\x08'), ('t', '\t'), ('n', '\n'), ('f', '\x0c'), ('r', '\r'), ('e', '\x1b'),
   ('"', '"'), ('\\', '\\')].lookup c

/-- Reads a text of one line behind its single quote; what was read is last first. -/
def literal? (taken : List Char) : List Char → Option (String × List Char)
  | '\'' :: cs => some (String.ofList taken.reverse, cs)
  | c :: cs => if isControl c then none else literal? (c :: taken) cs
  | [] => none

/-- Reads a text of one line behind its double quote; what was read is last first. -/
def basic? (taken : List Char) : List Char → Option (String × List Char)
  | '"' :: cs => some (String.ofList taken.reverse, cs)
  | '\\' :: 'x' :: a :: b :: cs => do
    basic? ((← Text.charOfHex? [a, b]) :: taken) cs
  | '\\' :: 'u' :: a :: b :: c :: d :: cs => do
    basic? ((← Text.charOfHex? [a, b, c, d]) :: taken) cs
  | '\\' :: 'U' :: a :: b :: c :: d :: e :: f :: g :: h :: cs => do
    basic? ((← Text.charOfHex? [a, b, c, d, e, f, g, h]) :: taken) cs
  | '\\' :: c :: cs => do
    basic? ((← escaped? c) :: taken) cs
  | c :: cs => if isControl c then none else basic? (c :: taken) cs
  | [] => none

/-- Ends a text of many lines: up to two of the quotes at its end belong to it. -/
def endLines (quote : Char) (taken : List Char) : List Char → String × List Char
  | c :: d :: cs =>
    if c = quote ∧ d = quote then (String.ofList (quote :: quote :: taken).reverse, cs)
    else if c = quote then (String.ofList (quote :: taken).reverse, d :: cs)
    else (String.ofList taken.reverse, c :: d :: cs)
  | [c] =>
    if c = quote then (String.ofList (quote :: taken).reverse, [])
    else (String.ofList taken.reverse, [c])
  | [] => (String.ofList taken.reverse, [])

/-- Reads a text of many lines behind its single quotes; what was read is last first. -/
def literalLines? (taken : List Char) : List Char → Option (String × List Char)
  | '\'' :: '\'' :: '\'' :: cs => some (endLines '\'' taken cs)
  | '\r' :: '\n' :: cs => literalLines? ('\n' :: '\r' :: taken) cs
  | c :: cs => if isControl c && c != '\n' then none else literalLines? (c :: taken) cs
  | [] => none

def startsBreak : List Char → Bool
  | '\n' :: _ | '\r' :: '\n' :: _ => true
  | _ => false

def endsBlank (cs : List Char) : Bool :=
  startsBreak (cs.dropWhile Text.isSpace)

/-- Reads a text of many lines behind its double quotes; what was read is last first.  Behind a
backslash at the end of a line (`joins`) blanks and line breaks do not count. -/
def basicLines? (joins : Bool) (taken : List Char) : List Char → Option (String × List Char)
  | '"' :: '"' :: '"' :: cs => some (endLines '"' taken cs)
  | '\\' :: 'x' :: a :: b :: cs => do
    basicLines? false ((← Text.charOfHex? [a, b]) :: taken) cs
  | '\\' :: 'u' :: a :: b :: c :: d :: cs => do
    basicLines? false ((← Text.charOfHex? [a, b, c, d]) :: taken) cs
  | '\\' :: 'U' :: a :: b :: c :: d :: e :: f :: g :: h :: cs => do
    basicLines? false ((← Text.charOfHex? [a, b, c, d, e, f, g, h]) :: taken) cs
  | '\\' :: c :: cs => do
    if endsBlank (c :: cs) then basicLines? true taken cs
    else basicLines? false ((← escaped? c) :: taken) cs
  | '\r' :: '\n' :: cs =>
    if joins then basicLines? true taken cs else basicLines? false ('\n' :: '\r' :: taken) cs
  | c :: cs =>
    if joins && (Text.isSpace c || c == '\n') then basicLines? true taken cs
    else if isControl c && c != '\n' then none
    else basicLines? false (c :: taken) cs
  | [] => none

def dropBreak : List Char → List Char
  | '\n' :: cs | '\r' :: '\n' :: cs => cs
  | cs => cs

def text? : List Char → Option (String × List Char)
  | '"' :: '"' :: '"' :: cs => basicLines? false [] (dropBreak cs)
  | '\'' :: '\'' :: '\'' :: cs => literalLines? [] (dropBreak cs)
  | '"' :: cs => basic? [] cs
  | '\'' :: cs => literal? [] cs
  | _ => none

end Discovery.Settings.Toml
