import Discovery.Json.Basic
import Discovery.Text.Bytes

/-!
# Drafts

Reading JSON goes from left to right and stops at the first thing that is wrong.  Whether a thing
is wrong may depend on what the reader wants at that place: who skips a value does not care
whether a number is too large or a text is badly coded.  So a text is first read as far as it
goes, into a `Draft` that shows where reading has to stop; what is wanted is asked of the draft
afterwards.

* `Draft.ofBytes`: the draft of a text, and what is left behind it.
-/

namespace Discovery.Json

/-- What kind of thing is wrong: it is not JSON, it is not what was wanted, or it ends too soon. -/
inductive Category where
  | malformed
  | data
  | eof
deriving DecidableEq, Repr, Inhabited

/-- The place where reading has to stop, for who wants the value and for who skips it. -/
structure Break where
  wanted : Category
  skipped : Category
deriving DecidableEq, Repr, Inhabited

def Break.both (c : Category) : Break := ⟨c, c⟩

/-- How a list of items ends: it is closed, or reading stops, perhaps just behind a comma. -/
inductive Tail where
  | closed
  | cut (afterComma : Bool) (stop : Break)
deriving DecidableEq, Repr, Inhabited

/-- A JSON text as far as it can be read.  A number out of range and a text that is badly coded
have no value. -/
inductive Draft where
  | null
  | bool (b : Bool)
  | number (value : Option Number)
  | text (value : Option String)
  | array (items : List Draft) (tail : Tail)
  | object (members : List (Option String × Draft)) (tail : Tail)
  | broken (stop : Break)
deriving Repr, Inhabited

/-! ## Characters -/

def code (c : Char) : UInt8 := UInt8.ofNat c.toNat

def isBlank (b : UInt8) : Bool :=
  b == 0x20 || b == 0x0a || b == 0x0d || b == 0x09

/-- The text from the first byte on that is no blank. -/
def skipBlanks (bs : Bytes) : Bytes :=
  bs.dropWhile isBlank

def digit? (b : UInt8) : Option Nat :=
  if 0x30 ≤ b ∧ b ≤ 0x39 then some (b.toNat - 0x30) else none

def hexDigit? (b : UInt8) : Option Nat :=
  if 0x30 ≤ b ∧ b ≤ 0x39 then some (b.toNat - 0x30)
  else if 0x61 ≤ b ∧ b ≤ 0x66 then some (b.toNat - 0x57)
  else if 0x41 ≤ b ∧ b ≤ 0x46 then some (b.toNat - 0x37)
  else none

/-! ## Texts -/

def readHex4 : Bytes → Except Category (Nat × Bytes)
  | a :: b :: c :: d :: r =>
    match hexDigit? a, hexDigit? b, hexDigit? c, hexDigit? d with
    | some a, some b, some c, some d => .ok (((a * 16 + b) * 16 + c) * 16 + d, r)
    | _, _, _, _ => .error .malformed
  | _ => .error .eof

/-- What a one-letter escape stands for. -/
def escape? (b : UInt8) : Option UInt8 :=
  if b = code '"' ∨ b = code '\\' ∨ b = code '/' then some b
  else if b = code 'b' then some 0x08
  else if b = code 'f' then some 0x0c
  else if b = code 'n' then some 0x0a
  else if b = code 'r' then some 0x0d
  else if b = code 't' then some 0x09
  else none

def codePoint (n : Nat) : Bytes :=
  String.utf8EncodeChar (Char.ofNat n)

/-- Reads a code point behind `\u`: a unit that is no surrogate, or a leading surrogate with its
trailing one. -/
def readUnits (bs : Bytes) : Except Category (Bytes × Bytes) := do
  let (n, r) ← readHex4 bs
  if 0xdc00 ≤ n ∧ n ≤ 0xdfff then throw .malformed
  if n < 0xd800 ∨ 0xdbff < n then return (codePoint n, r)
  match r with
  | [] => throw .eof
  | b :: r =>
    if b ≠ code '\\' then throw .malformed
    match r with
    | [] => throw .eof
    | b :: r =>
      if b ≠ code 'u' then throw .malformed
      let (m, r) ← readHex4 r
      if m < 0xdc00 ∨ 0xdfff < m then throw .malformed
      return (codePoint (0x10000 + (n - 0xd800) * 0x400 + (m - 0xdc00)), r)

/-- Reads a text behind its opening quote, into its bytes. -/
def readText : Nat → Bytes → Except Category (Bytes × Bytes)
  | 0, _ => .error .eof
  | _ + 1, [] => .error .eof
  | fuel + 1, b :: r =>
    if b = code '"' then .ok ([], r)
    else if b = code '\\' then
      match r with
      | [] => .error .eof
      | e :: r =>
        if e = code 'u' then do
          let (x, r) ← readUnits r
          let (y, r) ← readText fuel r
          return (x ++ y, r)
        else match escape? e with
          | some x => do
            let (y, r) ← readText fuel r
            return (x :: y, r)
          | none => .error .malformed
    else if b < 0x20 then .error .malformed
    else do
      let (y, r) ← readText fuel r
      return (b :: y, r)

def skipText : Nat → Bytes → Except Category Bytes
  | 0, _ => .error .eof
  | _ + 1, [] => .error .eof
  | fuel + 1, b :: r =>
    if b = code '"' then .ok r
    else if b = code '\\' then
      match r with
      | [] => .error .eof
      | e :: r =>
        if e = code 'u' then do
          let (_, r) ← readHex4 r
          skipText fuel r
        else if (escape? e).isSome then skipText fuel r
        else .error .malformed
    else if b < 0x20 then .error .malformed
    else skipText fuel r

/-- The value of a text behind its opening quote, if it is well coded. -/
def textValue (bs : Bytes) : Except Category String := do
  let (content, _) ← readText (bs.length + 1) bs
  match Bytes.toText? content with
  | some s => return s
  | none => throw .malformed

/-- A text behind its opening quote: its value if it has one, and what is left behind it. -/
def readQuoted (bs : Bytes) : Except Break (Option String × Bytes) :=
  match skipText (bs.length + 1) bs, textValue bs with
  | .ok r, v => .ok (v.toOption, r)
  | .error c, .error w => .error ⟨w, c⟩
  | .error c, .ok _ => .error (.both c)

/-! ## Numbers -/

def readDigits : Bytes → List Nat × Bytes
  | [] => ([], [])
  | b :: r =>
    match digit? b with
    | some d => let (ds, r') := readDigits r; (d :: ds, r')
    | none => ([], b :: r)

structure Numeral where
  negative : Bool
  whole : List Nat
  fraction : Option (List Nat)
  exponent : Option (Bool × List Nat)
deriving DecidableEq, Repr, Inhabited

def someDigits (bs : Bytes) : Except Break (List Nat × Bytes) :=
  match readDigits bs with
  | ([], []) => .error ⟨.eof, .malformed⟩
  | ([], _) => .error (.both .malformed)
  | (ds, r) => .ok (ds, r)

/-- Reads the digits in front of the point: no zero stands before another digit. -/
def readWhole (bs : Bytes) : Except Break (List Nat × Bytes) := do
  match ← someDigits bs with
  | (0 :: _ :: _, _) => throw (.both .malformed)
  | found => return found

def readFraction : Bytes → Except Break (Option (List Nat) × Bytes)
  | [] => .ok (none, [])
  | b :: r =>
    if b = code '.' then (someDigits r).map fun (ds, r) => (some ds, r) else .ok (none, b :: r)

/-- Reads a sign: whether it is a minus, and the rest. -/
def readSign : Bytes → Bool × Bytes
  | [] => (false, [])
  | b :: r =>
    if b = code '-' then (true, r) else if b = code '+' then (false, r) else (false, b :: r)

def readExponent : Bytes → Except Break (Option (Bool × List Nat) × Bytes)
  | [] => .ok (none, [])
  | b :: r =>
    if b = code 'e' ∨ b = code 'E' then
      let (negative, r) := readSign r
      (someDigits r).map fun (ds, r) => (some (negative, ds), r)
    else .ok (none, b :: r)

def readNumeral (bs : Bytes) : Except Break (Numeral × Bytes) := do
  let (negative, r) := match bs with
    | b :: r => if b = code '-' then (true, r) else (false, bs)
    | [] => (false, [])
  let (whole, r) ← readWhole r
  let (fraction, r) ← readFraction r
  let (exponent, r) ← readExponent r
  return ({ negative, whole, fraction, exponent }, r)

def maxUnsigned : Nat := Decimal.unsignedLimit - 1

/-- A number that is gathered digit by digit: what fits into 64 bits, and the power of ten. -/
structure Gathered where
  significand : Nat
  exponent : Int

/-- Takes the digits in front of the point.  From the first one on that does not fit, digits only
count. -/
def gatherWhole : List Nat → Nat → Gathered
  | [], n => ⟨n, 0⟩
  | d :: ds, n =>
    if n * 10 + d ≤ maxUnsigned then gatherWhole ds (n * 10 + d) else ⟨n, ds.length + 1⟩

/-- Takes the digits behind the point.  From the first one on that does not fit, digits are left
out. -/
def gatherFraction : List Nat → Gathered → Gathered
  | [], g => g
  | d :: ds, g =>
    if g.significand * 10 + d ≤ maxUnsigned then
      gatherFraction ds ⟨g.significand * 10 + d, g.exponent - 1⟩
    else g

def digitsValue (ds : List Nat) : Nat :=
  ds.foldl (fun n d => n * 10 + d) 0

/-- The largest exponent that is taken as it is written. -/
def maxExponent : Nat := Decimal.twoTo 31 - 1

/-- Scales a double by a power of ten, in steps of at most 308 places, each of them rounded.  What
grows beyond the range is refused. -/
def scale : Nat → Double → Int → Option Double
  | 0, _, _ => none
  | fuel + 1, f, e =>
    if e.natAbs ≤ 308 then
      let power := Double.ofNat (Decimal.tenTo e.natAbs)
      if 0 ≤ e then
        let g := f.scaleUp power
        if g.isInfinite then none else some g
      else some (f.scaleDown power)
    else if f.isZero then some f
    else if 0 ≤ e then none
    else scale fuel (f.scaleDown (Double.ofNat (Decimal.tenTo 308))) (e + 308)

def signed (negative : Bool) (x : Double) : Double :=
  if negative then x.negate else x

def Gathered.double? (g : Gathered) (negative : Bool) : Option Double :=
  (scale 8 (Double.ofNat g.significand) g.exponent).map (signed negative)

/-- The value of a numeral, if it is in range.  An integer that fits into 64 bits stays one; zero
with a sign, and all else, is a double. -/
def Numeral.value (n : Numeral) : Option Number :=
  let w := gatherWhole n.whole 0
  match n.fraction, n.exponent with
  | none, none =>
    if w.exponent ≠ 0 then (w.double? n.negative).map .double
    else if !n.negative then some (.int w.significand)
    else if w.significand = 0 ∨ Decimal.signedLimit < w.significand then
      some (.double (signed true (Double.ofNat w.significand)))
    else some (.int (-w.significand))
  | fraction, exponent =>
    let g := gatherFraction (fraction.getD []) w
    match exponent with
    | none => (g.double? n.negative).map .double
    | some (down, ds) =>
      let e := digitsValue ds
      if maxExponent < e then
        if g.significand ≠ 0 ∧ !down then none
        else some (.double (signed n.negative (Double.ofNat 0)))
      else
        let shifted : Gathered := ⟨g.significand, if down then g.exponent - e else g.exponent + e⟩
        (shifted.double? n.negative).map .double

/-! ## Values -/

def readWord : List Char → Bytes → Except Break Bytes
  | [], r => .ok r
  | _ :: _, [] => .error (.both .eof)
  | c :: cs, b :: r => if b = code c then readWord cs r else .error (.both .malformed)

/-- A draft that reading stops in has nothing left behind it. -/
def stop (b : Break) : Draft × Option Bytes :=
  (.broken b, none)

def word (cs : List Char) (d : Draft) (bs : Bytes) : Draft × Option Bytes :=
  match readWord cs bs with
  | .ok r => (d, some r)
  | .error b => stop b

mutual

def readValue : Nat → Bytes → Draft × Option Bytes
  | 0, _ => stop (.both .eof)
  | fuel + 1, bs =>
    match skipBlanks bs with
    | [] => stop (.both .eof)
    | b :: r =>
      if b = code 'n' then word ['u', 'l', 'l'] .null r
      else if b = code 't' then word ['r', 'u', 'e'] (.bool true) r
      else if b = code 'f' then word ['a', 'l', 's', 'e'] (.bool false) r
      else if b = code '-' ∨ (digit? b).isSome then
        match readNumeral (b :: r) with
        | .ok (n, r) => (.number n.value, some r)
        | .error e => stop e
      else if b = code '"' then
        match readQuoted r with
        | .ok (v, r) => (.text v, some r)
        | .error e => stop e
      else if b = code '[' then
        let (items, tail, r) := readItems fuel true r
        (.array items tail, r)
      else if b = code '\x7b' then
        let (members, tail, r) := readMembers fuel true r
        (.object members tail, r)
      else stop (.both .malformed)

/-- Reads the items of an array, from the opening bracket or from behind an item. -/
def readItems : Nat → Bool → Bytes → List Draft × Tail × Option Bytes
  | 0, _, _ => ([], .cut false (.both .eof), none)
  | fuel + 1, first, bs =>
    match skipBlanks bs with
    | [] => ([], .cut false (.both .eof), none)
    | b :: r =>
      if b = code ']' then ([], .closed, some r)
      else if first then readItem fuel (b :: r)
      else if b = code ',' then
        match skipBlanks r with
        | [] => ([], .cut true (.both .eof), none)
        | b :: r =>
          if b = code ']' then ([], .cut true (.both .malformed), none)
          else readItem fuel (b :: r)
      else ([], .cut false (.both .malformed), none)

def readItem : Nat → Bytes → List Draft × Tail × Option Bytes
  | 0, _ => ([], .cut false (.both .eof), none)
  | fuel + 1, bs =>
    match readValue fuel bs with
    | (d, none) => ([d], .closed, none)
    | (d, some r) =>
      let (ds, tail, r) := readItems fuel false r
      (d :: ds, tail, r)

/-- Reads the members of an object, from the opening brace or from behind a member. -/
def readMembers : Nat → Bool → Bytes → List (Option String × Draft) × Tail × Option Bytes
  | 0, _, _ => ([], .cut false (.both .eof), none)
  | fuel + 1, first, bs =>
    match skipBlanks bs with
    | [] => ([], .cut false (.both .eof), none)
    | b :: r =>
      if b = code '\x7d' then ([], .closed, some r)
      else if first then readMember fuel (b :: r)
      else if b = code ',' then
        match skipBlanks r with
        | [] => ([], .cut true (.both .eof), none)
        | b :: r => readMember fuel (b :: r)
      else ([], .cut false (.both .malformed), none)

def readMember : Nat → Bytes → List (Option String × Draft) × Tail × Option Bytes
  | 0, _ => ([], .cut false (.both .eof), none)
  | _ + 1, [] => ([], .cut false (.both .eof), none)
  | fuel + 1, b :: r =>
    if b = code '"' then
      match readQuoted r with
      | .error e => ([], .cut false e, none)
      | .ok (k, r) =>
        match skipBlanks r with
        | [] => ([(k, .broken (.both .eof))], .closed, none)
        | b :: r =>
          if b = code ':' then
            match readValue fuel r with
            | (d, none) => ([(k, d)], .closed, none)
            | (d, some r) =>
              let (ms, tail, r) := readMembers fuel false r
              ((k, d) :: ms, tail, r)
          else ([(k, .broken (.both .malformed))], .closed, none)
    else ([], .cut false (.both .malformed), none)

end

/-- The draft of a text, and what is left behind it unless reading stopped. -/
def Draft.ofBytes (bs : Bytes) : Draft × Option Bytes :=
  readValue (3 * bs.length + 3) bs

end Discovery.Json
