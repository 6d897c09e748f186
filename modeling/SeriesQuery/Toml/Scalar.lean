/-
Scalars in TOML.

Truth values, date-times, floats and integers.  Underscores may stand between two digits of a
number.  An integer has to fit 64 bits with a sign; a float is rounded to the nearest
binary64 number and must not exceed them all, unless it is negative: then it is infinite.
-/
import SeriesQuery.Document.Moment
import SeriesQuery.Floating.Numeral
import SeriesQuery.Text.Hex
import SeriesQuery.Toml.Text

namespace SeriesQuery.Toml

open Text

/-! ### Digits -/

/-- The digits at the front, each with an underscore before it or not, and the rest. -/
def moreDigits (isDigit : Char → Bool) : List Char → List Char × List Char
  | [] => ([], [])
  | '_' :: c :: r =>
    if isDigit c then
      let (ds, rest) := moreDigits isDigit r
      (c :: ds, rest)
    else ([], '_' :: c :: r)
  | c :: r =>
    if isDigit c then
      let (ds, rest) := moreDigits isDigit r
      (c :: ds, rest)
    else ([], c :: r)

/-- One digit or more, underscores between them. -/
def digits (isDigit : Char → Bool) : Reader (List Char) := do
  let c ← Reader.satisfying isDigit
  let ds ← fun s => some (moreDigits isDigit s)
  return c :: ds

/-- The digits of a whole number: a zero alone, or digits that start with none. -/
def wholeDigits : Reader (List Char)
  | '0' :: r => some (['0'], r)
  | s => digits Char.isDigit s

/-! ### Numbers -/

/-- An integer in decimal, its sign optional. -/
def decimalInteger : Reader Document := do
  let negative ← Numeral.sign
  let n : Int := Numeral.valueOf (← wholeDigits)
  let n := if negative then -n else n
  if Document.isSigned64 n then return .integer n else failure

/-- An integer in another base, behind a zero and the letter of the base. -/
def radixInteger (letter : Char) (base : Nat) : Reader Document := do
  Reader.word ['0', letter]
  let ds ← digits fun c => (hexDigit? c).any (· < base)
  let n : Int := ds.foldl (fun n c => n * base + (hexDigit? c).getD 0) 0
  if Document.isSigned64 n then return .integer n else failure

/-- The fraction of a float, from its point on. -/
def fraction : Reader (List Char) := do
  Reader.char '.'
  digits Char.isDigit

/-- The exponent of a float, from its letter on. -/
def exponent : Reader Int := do
  let _ ← Reader.satisfying fun c => c == 'e' || c == 'E'
  let negative ← Numeral.sign
  let n : Int := Numeral.valueOf (← digits Char.isDigit)
  return if negative then -n else n

/-- A float: a whole number with a fraction, an exponent or both. -/
def decimalFloat : Reader Document := do
  let negative ← Numeral.sign
  let whole ← wholeDigits
  let fraction ← Reader.optional fraction
  let exponent ← Reader.optional exponent
  if fraction.isNone && exponent.isNone then failure
  let behind := fraction.getD []
  let numeral : Numeral :=
    ⟨negative, Numeral.valueOf (whole ++ behind), exponent.getD 0 - behind.length⟩
  match numeral.toFloating .binary64 with
  | .infinite false => failure
  | x => return .float x

/-- An infinity or a float that is no number, its sign optional. -/
def wordFloat : Reader Document := do
  let negative ← Numeral.sign
  (do Reader.word ['i', 'n', 'f']; return .float (.infinite negative))
  <|> (do Reader.word ['n', 'a', 'n']; return .float .nan)

/-! ### Scalars -/

/-- A truth value. -/
def boolean : Reader Document :=
  (do Reader.word ['t', 'r', 'u', 'e']; return .bool true)
  <|> (do Reader.word ['f', 'a', 'l', 's', 'e']; return .bool false)

/-- A value that holds no other values. -/
def scalar : Reader Document :=
  (do return .text (← quotedText))
  <|> boolean
  <|> (do return (← Moment.read .strict).document)
  <|> decimalFloat
  <|> wordFloat
  <|> radixInteger 'x' 16
  <|> radixInteger 'o' 8
  <|> radixInteger 'b' 2
  <|> decimalInteger

end SeriesQuery.Toml
