/-
Texts, keys and blanks in TOML.

A text stands between quotes of either kind, single or tripled.  Between double quotes a
backslash escapes; between single quotes nothing does.  Tripled quotes may hold line breaks,
a first one directly behind the opening quotes not counted, and a backslash at the end of a
line joins it to the next text.
-/
import SeriesQuery.Text.Hex
import SeriesQuery.Text.Reader

namespace SeriesQuery.Toml

open Text

/-! ### Blanks -/

/-- The blanks within a line. -/
def isSpace (c : Char) : Bool :=
  c == ' ' || c == '\t'

/-- Whether a character may stand as itself in comments and texts: no control but the tab. -/
def isPlain (c : Char) : Bool :=
  c == '\t' || (0x20 ≤ c.toNat && c.toNat != 0x7F)

/-- Blanks within a line, possibly none. -/
def spaces : Reader Unit := do
  let _ ← Reader.span isSpace

/-- A line break. -/
def newline : Reader Unit
  | '\n' :: r => some ((), r)
  | '\r' :: '\n' :: r => some ((), r)
  | _ => none

/-- A comment, to the end of its line. -/
def comment : Reader Unit := do
  Reader.char '#'
  let _ ← Reader.span isPlain

/-- The rest of a line that holds nothing more: blanks, a comment, and the break or the end. -/
def lineEnd : Reader Unit := do
  spaces
  let _ ← Reader.optional comment
  newline <|> Reader.atEnd

/-- The text behind blanks, line breaks and comments. -/
def dropLayout : (inComment : Bool) → List Char → List Char
  | _, [] => []
  | _, '\n' :: r => dropLayout false r
  | _, '\r' :: '\n' :: r => dropLayout false r
  | true, c :: r => if isPlain c then dropLayout true r else c :: r
  | false, '#' :: r => dropLayout true r
  | false, c :: r => if isSpace c then dropLayout false r else c :: r

/-- Blanks, line breaks and comments, possibly none. -/
def layout : Reader Unit :=
  fun s => some ((), dropLayout false s)

/-! ### Texts -/

/-- What an escape of one letter stands for. -/
def escapedChar? : Char → Option Char
  | 'b' => some '\x08'
  | 't' => some '\t'
  | 'n' => some '\n'
  | 'f' => some '\x0c'
  | 'r' => some '\r'
  | '"' => some '"'
  | '\\' => some '\\'
  | _ => none

/-- The character that hexadecimal digits stand for. -/
def codePoint? (ds : List Char) : Option Char := do
  let n ← hexValue? ds
  if n.isValidChar then some (Char.ofNat n) else none

/-- Puts a character before what has been read of a text. -/
def prepend (c : Char) : List Char × List Char → List Char × List Char :=
  fun (cs, rest) => (c :: cs, rest)

/-- The characters up to the closing double quote, and the rest behind it. -/
def basicTail : List Char → Option (List Char × List Char)
  | [] => none
  | '"' :: r => some ([], r)
  | '\\' :: 'u' :: a :: b :: c :: d :: r => do
    let x ← codePoint? [a, b, c, d]
    return prepend x (← basicTail r)
  | '\\' :: 'U' :: a :: b :: c :: d :: e :: f :: g :: h :: r => do
    let x ← codePoint? [a, b, c, d, e, f, g, h]
    return prepend x (← basicTail r)
  | '\\' :: c :: r => do
    let x ← escapedChar? c
    return prepend x (← basicTail r)
  | c :: r =>
    if isPlain c && c != '\\' then do return prepend c (← basicTail r) else none

/-- The characters up to the closing single quote, and the rest behind it. -/
def literalTail : List Char → Option (List Char × List Char)
  | [] => none
  | '\'' :: r => some ([], r)
  | c :: r => if isPlain c then do return prepend c (← literalTail r) else none

/-- Where reading is with respect to a backslash at the end of a line. -/
inductive Fold where
  | none
  /-- Behind the backslash: only blanks and the line break may follow. -/
  | beforeBreak
  /-- Behind the line break: blanks and line breaks are dropped. -/
  | afterBreak

/-- The characters up to three closing double quotes, and the rest behind them.  One or two
    quotes directly before the closing ones belong to the text. -/
def multiBasicTail : Fold → List Char → Option (List Char × List Char)
  | _, [] => .none
  | .beforeBreak, '\n' :: r => multiBasicTail .afterBreak r
  | .beforeBreak, '\r' :: '\n' :: r => multiBasicTail .afterBreak r
  | .beforeBreak, c :: r => if isSpace c then multiBasicTail .beforeBreak r else .none
  | _, '"' :: '"' :: '"' :: '"' :: '"' :: r => some (['"', '"'], r)
  | _, '"' :: '"' :: '"' :: '"' :: r => some (['"'], r)
  | _, '"' :: '"' :: '"' :: r => some ([], r)
  | _, '\\' :: 'u' :: a :: b :: c :: d :: r => do
    let x ← codePoint? [a, b, c, d]
    return prepend x (← multiBasicTail .none r)
  | _, '\\' :: 'U' :: a :: b :: c :: d :: e :: f :: g :: h :: r => do
    let x ← codePoint? [a, b, c, d, e, f, g, h]
    return prepend x (← multiBasicTail .none r)
  | _, '\\' :: c :: r =>
    match escapedChar? c with
    | some x => do return prepend x (← multiBasicTail .none r)
    | .none => multiBasicTail .beforeBreak (c :: r)
  | .afterBreak, '\r' :: '\n' :: r => multiBasicTail .afterBreak r
  | .none, '\r' :: '\n' :: r => do return prepend '\n' (← multiBasicTail .none r)
  | .afterBreak, c :: r =>
    if c == '\n' || isSpace c then multiBasicTail .afterBreak r
    else if isPlain c && c != '\\' then do return prepend c (← multiBasicTail .none r)
    else .none
  | .none, c :: r =>
    if c == '\n' || (isPlain c && c != '\\') then do
      return prepend c (← multiBasicTail .none r)
    else .none

/-- The characters up to three closing single quotes, and the rest behind them.  One or two
    quotes directly before the closing ones belong to the text. -/
def multiLiteralTail : List Char → Option (List Char × List Char)
  | [] => none
  | '\'' :: '\'' :: '\'' :: '\'' :: '\'' :: r => some (['\'', '\''], r)
  | '\'' :: '\'' :: '\'' :: '\'' :: r => some (['\''], r)
  | '\'' :: '\'' :: '\'' :: r => some ([], r)
  | '\r' :: '\n' :: r => do return prepend '\n' (← multiLiteralTail r)
  | c :: r =>
    if c == '\n' || isPlain c then do return prepend c (← multiLiteralTail r) else none

/-- A text between quotes of one line. -/
def lineText : Reader String
  | '"' :: r => (basicTail r).map fun (cs, rest) => (String.ofList cs, rest)
  | '\'' :: r => (literalTail r).map fun (cs, rest) => (String.ofList cs, rest)
  | _ => none

/-- A text between quotes of either kind. -/
def quotedText : Reader String
  | '"' :: '"' :: '"' :: r => (do
      let _ ← Reader.optional newline
      return String.ofList (← multiBasicTail .none)) r
  | '\'' :: '\'' :: '\'' :: r => (do
      let _ ← Reader.optional newline
      return String.ofList (← multiLiteralTail)) r
  | s => lineText s

/-! ### Keys -/

/-- The characters of a key without quotes. -/
def isKeyChar (c : Char) : Bool :=
  c.isAlphanum || c == '_' || c == '-'

/-- One part of a key. -/
def keyPart : Reader String :=
  lineText <|> (do return String.ofList (← Reader.span1 isKeyChar))

/-- How many parts a key may have. -/
def maxKeyParts : Nat := 79

/-- A key: parts with dots between them, and blanks around each part.  The last part is
    given apart from those before it. -/
def key : Reader (List String × String) := do
  let parts ← Reader.separated (do spaces; let k ← keyPart; spaces; return k) (Reader.char '.')
  match parts.getLast? with
  | some last => if parts.length ≤ maxKeyParts then return (parts.dropLast, last) else failure
  | none => failure

end SeriesQuery.Toml
