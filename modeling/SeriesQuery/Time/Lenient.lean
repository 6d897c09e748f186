/-
Timestamps as people write them.

Year, month and day between hyphens, a `T` or blanks, hour, minute and second between
colons with an optional fraction, and an offset.  Every field but the offset may be short
of digits, blanks may surround the fields, and the year may have a sign and then any
number of digits.  The offset is `Z`, `UTC`, or a sign, two digits of hours and two of
minutes, with colons or blanks or nothing between them.
-/
import SeriesQuery.Text.Blank
import SeriesQuery.Time.Timestamp

namespace SeriesQuery.Timestamp.Lenient

open Text

/-- Blanks, possibly none. -/
def blanks : Reader Unit := do
  let _ ← Reader.span isBlank

/-- At most so many decimal digits, at least one. -/
def digits (width : Nat) : Reader Nat := fun s =>
  let ds := (s.takeWhile Char.isDigit).take width
  if ds.isEmpty then none else some (Numeral.valueOf ds, s.drop ds.length)

/-- A number of one or two digits, after blanks. -/
def field : Reader Nat := do
  blanks
  digits 2

/-- A year of up to four digits, or of any number of digits after a sign. -/
def year : Reader Int := do
  blanks
  match ← get with
  | '-' :: r => set r; return -(Numeral.valueOf (← Reader.span1 Char.isDigit))
  | '+' :: r => set r; return Numeral.valueOf (← Reader.span1 Char.isDigit)
  | _ => return ← digits 4

/-- A mark that blanks may precede. -/
def mark (c : Char) : Reader Unit := do
  blanks
  Reader.char c

/-- The nanoseconds of a fraction, which a point opens; `0` where there is none. -/
def fraction : Reader Nat := do
  match ← get with
  | '.' :: r => set r; return nanosOf (← Reader.span1 Char.isDigit)
  | _ => return 0

/-- The hours and minutes of an offset, in seconds. -/
def offsetSize : Reader Int := do
  let hours ← twoDigits
  let _ ← Reader.span fun c => c == ':' || isBlank c
  let minutes ← twoDigits
  if minutes ≤ 59 then return hours * 3600 + minutes * 60 else failure

/-- How many seconds local clocks are ahead of UTC. -/
def offset : Reader Int := do
  match ← get with
  | 'Z' :: r | 'z' :: r => set r; return 0
  | '+' :: r => set r; offsetSize
  | '-' :: r | '−' :: r => set r; return -(← offsetSize)
  | u :: t :: c :: r =>
    if [u, t, c].map Char.toUpper = ['U', 'T', 'C'] then set r; return 0 else failure
  | _ => failure

/-- A date, a time and an offset, blanks after them included. -/
def timestamp : Reader Timestamp := do
  let y ← year
  mark '-'
  let month ← field
  mark '-'
  let day ← field
  let _ ← Reader.satisfying fun c => c == 'T' || c == 't' || c == ' '
  let hour ← field
  mark ':'
  let minute ← field
  mark ':'
  let second ← field
  let nanos ← fraction
  blanks
  let ahead ← offset
  blanks
  match ofLocal? ⟨y, month, day⟩ ⟨hour, minute, second, nanos⟩ ahead with
  | some t => return t
  | none => failure

end SeriesQuery.Timestamp.Lenient

namespace SeriesQuery

/-- The timestamp that the whole text stands for. -/
def Timestamp.ofText? (text : String) : Option Timestamp :=
  Text.Reader.whole Lenient.timestamp text.toList

end SeriesQuery
