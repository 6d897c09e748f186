/-
Writing lists of texts as JSON.
-/

namespace SeriesQuery.Json

/-- A code point below 256 as two hexadecimal digits. -/
def twoHexDigits (n : Nat) : List Char :=
  [Nat.digitChar (n / 16), Nat.digitChar (n % 16)]

/-- How one character stands between the quotes. -/
def escapeChar (c : Char) : List Char :=
  if c = '"' then ['\\', '"']
  else if c = '\\' then ['\\', '\\']
  else if c = '\x08' then ['\\', 'b']
  else if c = '\t' then ['\\', 't']
  else if c = '\n' then ['\\', 'n']
  else if c = '\x0c' then ['\\', 'f']
  else if c = '\r' then ['\\', 'r']
  else if c.toNat < 0x20 then ['\\', 'u', '0', '0'] ++ twoHexDigits c.toNat
  else [c]

/-- The text between double quotes. -/
def quote (s : String) : String :=
  "\"" ++ String.ofList (s.toList.flatMap escapeChar) ++ "\""

/-- The texts as a list, each on a line of its own. -/
def textList (texts : List String) : String :=
  if texts.isEmpty then "[]"
  else "[\n" ++ ",\n".intercalate (texts.map fun s => "  " ++ quote s) ++ "\n]"

end SeriesQuery.Json
