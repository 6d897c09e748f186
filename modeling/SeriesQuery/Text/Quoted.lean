/-
Text shown between double quotes.

Error messages show a text so that every character of it can be seen: quotes,
backslashes, line breaks and tabs are escaped, and whatever leaves no ink or would merge
with its neighbour is written as its code point.
-/
import SeriesQuery.Text.Unprintable
import SeriesQuery.Text.Combining

namespace SeriesQuery.Text

/-- The code point of a character as `\u` and hexadecimal digits between braces. -/
def codePointEscape (c : Char) : List Char :=
  ['\\', 'u', '\x7b'] ++ Nat.toDigits 16 c.toNat ++ ['\x7d']

/-- How one character is shown. -/
def showChar (c : Char) : List Char :=
  if c = '\x00' then ['\\', '0']
  else if c = '\t' then ['\\', 't']
  else if c = '\r' then ['\\', 'r']
  else if c = '\n' then ['\\', 'n']
  else if c = '\\' then ['\\', '\\']
  else if c = '"' then ['\\', '"']
  else if isCombining c || !isPrintable c then codePointEscape c
  else [c]

/-- The text between double quotes, with every hidden character made visible. -/
def quoted (s : String) : String :=
  "\"" ++ String.ofList (s.toList.flatMap showChar) ++ "\""

end SeriesQuery.Text
