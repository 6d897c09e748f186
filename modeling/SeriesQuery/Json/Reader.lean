/-
Reading JSON.

The notation is strict: no comments, no trailing commas, no text but blanks around the
value, at most 127 lists and tables inside one another.  A whole number is an integer while
64 bits hold it, signed for negative numbers and unsigned for others; every other number is
a float.

A float is read fast rather than exactly.  Digits are collected into one 64-bit number as
long as it holds them, the rest only counted; that number is rounded to binary64 and then
multiplied or divided by a power of ten that is itself rounded.
-/
import SeriesQuery.Document.Basic
import SeriesQuery.Floating.Numeral
import SeriesQuery.Text.Hex

namespace SeriesQuery.Json

open Text

/-- The characters that may stand between the parts of a value. -/
def isSpace (c : Char) : Bool :=
  c == ' ' || c == '\t' || c == '\n' || c == '\r'

/-- Blanks, possibly none. -/
def spaces : Reader Unit := do
  let _ ← Reader.span isSpace

/-! ### Texts -/

/-- The character that a backslash and one letter stand for. -/
def escapedChar? : Char → Option Char
  | '"' => some '"'
  | '\\' => some '\\'
  | '/' => some '/'
  | 'b' => some '\x08'
  | 'f' => some '\x0c'
  | 'n' => some '\n'
  | 'r' => some '\r'
  | 't' => some '\t'
  | _ => none

/-- Whether a code unit is the first half of a pair that writes one character. -/
def isHighSurrogate (n : Nat) : Bool :=
  0xD800 ≤ n && n ≤ 0xDBFF

/-- Whether a code unit is the second half of a pair that writes one character. -/
def isLowSurrogate (n : Nat) : Bool :=
  0xDC00 ≤ n && n ≤ 0xDFFF

/-- The character that a pair of code units writes. -/
def ofSurrogates (high low : Nat) : Char :=
  Char.ofNat (0x10000 + (high - 0xD800) * 0x400 + (low - 0xDC00))

/-- The characters up to the closing quote, and the rest behind it.  Where a first half of a
    pair is pending, only its second half may follow. -/
def textTail : Option Nat → List Char → Option (List Char × List Char)
  | pending, '\\' :: 'u' :: a :: b :: c :: d :: r => do
    let n ← hexValue? [a, b, c, d]
    match pending with
    | some high =>
      if isLowSurrogate n then
        let (cs, rest) ← textTail none r
        return (ofSurrogates high n :: cs, rest)
      else none
    | none =>
      if isHighSurrogate n then textTail (some n) r
      else if isLowSurrogate n then none
      else
        let (cs, rest) ← textTail none r
        return (Char.ofNat n :: cs, rest)
  | some _, _ => none
  | none, [] => none
  | none, '"' :: r => some ([], r)
  | none, '\\' :: c :: r => do
    let c ← escapedChar? c
    let (cs, rest) ← textTail none r
    return (c :: cs, rest)
  | none, c :: r =>
    if c.toNat < 0x20 || c == '\\' then none
    else do
      let (cs, rest) ← textTail none r
      return (c :: cs, rest)

/-- A text between double quotes. -/
def quotedText : Reader String := do
  Reader.char '"'
  return String.ofList (← textTail none)

/-! ### Numbers -/

/-- Digits collected into a number that 64 bits hold, and the power of ten it stands for. -/
structure Collected where
  significand : Nat
  exponent : Int

/-- Collects the digits before the point; those that no longer fit only raise the exponent. -/
def Collected.whole (x : Collected) : List Char → Collected
  | [] => x
  | c :: r =>
    let n := x.significand * 10 + Numeral.valueOf [c]
    if n < UInt64.size then whole ⟨n, x.exponent⟩ r
    else ⟨x.significand, x.exponent + (r.length + 1 : Nat)⟩

/-- Collects the digits behind the point; those that no longer fit are dropped. -/
def Collected.fraction (x : Collected) : List Char → Collected
  | [] => x
  | c :: r =>
    let n := x.significand * 10 + Numeral.valueOf [c]
    if n < UInt64.size then fraction ⟨n, x.exponent - 1⟩ r else x

/-- A power of ten as binary64 holds it. -/
def powerOfTen (n : Nat) : Magnitude :=
  (Format.binary64.nearest? (Nat.pow 10 n) 1).getD ⟨0, 0⟩

/-- The number divided by `10 ^ n`, in steps of at most `10 ^ 308`. -/
def scaledDown (x : Magnitude) (n : Nat) : Option Magnitude :=
  if n ≤ 308 then
    let p := powerOfTen n
    Format.binary64.nearest? (x.num * p.den) (x.den * p.num)
  else if x.mantissa = 0 then some x
  else do
    let p := powerOfTen 308
    scaledDown (← Format.binary64.nearest? (x.num * p.den) (x.den * p.num)) (n - 308)
termination_by n

/-- The number multiplied by `10 ^ n`, unless it gets too large. -/
def scaledUp (x : Magnitude) (n : Nat) : Option Magnitude :=
  if x.mantissa = 0 then some x
  else if n ≤ 308 then
    let p := powerOfTen n
    Format.binary64.nearest? (x.num * p.num) (x.den * p.den)
  else none

/-- The float that collected digits stand for. -/
def Collected.toMagnitude? (x : Collected) : Option Magnitude := do
  let significand ← Format.binary64.nearest? x.significand 1
  if x.exponent < 0 then scaledDown significand (-x.exponent).toNat
  else scaledUp significand x.exponent.toNat

/-- The digits of a whole number: a zero alone, or digits that start with none. -/
def wholeDigits : Reader (List Char)
  | '0' :: r => some (['0'], r)
  | s => Reader.span1 Char.isDigit s

/-- The digits behind a point. -/
def fractionDigits : Reader (List Char) := do
  Reader.char '.'
  Reader.span1 Char.isDigit

/-- An exponent, its sign optional. -/
def exponent : Reader Int := do
  let _ ← Reader.satisfying fun c => c == 'e' || c == 'E'
  Numeral.signedDigits

/-- The document that a number's parts write, unless the number is too large. -/
def numberOf? (negative : Bool) (whole : List Char) (fraction : Option (List Char))
    (exponent : Option Int) : Option Document :=
  let n := Numeral.valueOf whole
  if fraction.isNone && exponent.isNone && !negative && decide (n < UInt64.size) then
    some (.integer n)
  else if fraction.isNone && exponent.isNone && negative &&
      decide (0 < n ∧ n ≤ 0x8000_0000_0000_0000) then
    some (.integer (-n))
  else do
    let x := (Collected.whole ⟨0, 0⟩ whole).fraction (fraction.getD [])
    let x : Collected := ⟨x.significand, x.exponent + exponent.getD 0⟩
    return .float (.finite negative (← x.toMagnitude?))

/-- A number. -/
def number : Reader Document := do
  let negative := (← Reader.optional (Reader.char '-')).isSome
  let whole ← wholeDigits
  let fraction ← Reader.optional fractionDigits
  let exponent ← Reader.optional exponent
  match numberOf? negative whole fraction exponent with
  | some d => return d
  | none => failure

/-! ### Values -/

/-- A value that holds no other values. -/
def scalar : Reader Document :=
  (do return .text (← quotedText))
  <|> number
  <|> (do Reader.word ['n', 'u', 'l', 'l']; return .null)
  <|> (do Reader.word ['t', 'r', 'u', 'e']; return .bool true)
  <|> (do Reader.word ['f', 'a', 'l', 's', 'e']; return .bool false)

/-- A list, behind its opening bracket. -/
def listTail (item : Reader Document) : Reader Document := do
  let items ← Reader.separated (do spaces; let d ← item; spaces; return d) (Reader.char ',')
  spaces
  Reader.char ']'
  return .list items

/-- A key, a colon and a value. -/
def member (item : Reader Document) : Reader (String × Document) := do
  spaces
  let key ← quotedText
  spaces
  Reader.char ':'
  spaces
  let d ← item
  spaces
  return (key, d)

/-- A table, behind its opening brace. -/
def tableTail (item : Reader Document) : Reader Document := do
  let members ← Reader.separated (member item) (Reader.char ',')
  spaces
  Reader.char '\x7d'
  return .table members

/-- A value with at most so many lists and tables inside one another. -/
def value : Nat → Reader Document
  | 0 => scalar
  | depth + 1 => fun s =>
    match s with
    | '[' :: r => listTail (value depth) r
    | '\x7b' :: r => tableTail (value depth) r
    | s => scalar s

/-- How many lists and tables may stand inside one another. -/
def maxDepth : Nat := 127

/-- The document that a JSON text writes. -/
def document? (text : String) : Option Document :=
  Reader.whole (do spaces; let d ← value maxDepth; spaces; return d) text.toList

end SeriesQuery.Json
