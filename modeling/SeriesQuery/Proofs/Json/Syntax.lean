/-
The syntax of JSON texts.

A text is cut into tokens before anything is known about what they mean: words, which are runs of
characters that neither part nor enclose anything, and quoted tokens, which end at the first quote
that no backslash stands before.  Lists and tables hold further values.  `Tree` is what such a text
is made of, and `Writes` says which texts write a tree: blanks may stand around every token.

Nothing here asks that a word is a number or a keyword, or that an escape means a character.  That
is what reading a token decides, and `Tree.read` reads a tree token by token.
-/
import SeriesQuery.Json.Reader

namespace SeriesQuery.Json

open Text

/-! ### Tokens -/

/-- A character that parts or encloses values. -/
def isMark (c : Char) : Bool :=
  ['[', ']', '\x7b', '\x7d', ',', ':', '"'].contains c

/-- A character of a word: no blank, and none that parts or encloses values. -/
def isWordChar (c : Char) : Bool :=
  !isSpace c && !isMark c

/-- Whether the characters can stand between quotes: every quote and every backslash among them
    stands behind a backslash. -/
def isBody : List Char → Bool
  | [] => true
  | '\\' :: _ :: r => isBody r
  | c :: r => c != '\\' && c != '"' && isBody r

/-- A word. -/
structure Word where
  text : List Char
  /-- A word is not empty. -/
  nonempty : text ≠ []
  /-- It has no characters but those of words. -/
  chars : ∀ c ∈ text, isWordChar c = true

/-- A quoted token. -/
structure Quoted where
  body : List Char
  /-- No quote inside ends the token early, and no backslash takes its closing quote. -/
  closed : isBody body = true

/-- The token with its quotes. -/
def Quoted.text (q : Quoted) : List Char :=
  '"' :: (q.body ++ ['"'])

/-- The text that the token stands for, unless an escape in it means nothing. -/
def Quoted.read (q : Quoted) : Option String :=
  Reader.whole quotedText q.text

/-! ### Trees -/

/-- What a text is made of. -/
inductive Tree where
  | word (w : Word)
  | quoted (q : Quoted)
  | list (items : List Tree)
  | table (members : List (Quoted × Tree))

/-- Blanks, possibly none. -/
def Blanks (s : List Char) : Prop :=
  ∀ c ∈ s, isSpace c = true

/-- Pieces with a comma between each two. -/
def joined : List (List Char) → List Char
  | [] => []
  | piece :: pieces => piece ++ pieces.flatMap (',' :: ·)

mutual

/-- The text writes the tree. -/
inductive Writes : Tree → List Char → Prop
  | word (w : Word) : Writes (.word w) w.text
  | quoted (q : Quoted) : Writes (.quoted q) q.text
  | list {items : List Tree} {pieces : List (List Char)} {blanks : List Char}
      (h : WritesItems items pieces) (hblanks : Blanks blanks) :
      Writes (.list items) ('[' :: (joined pieces ++ blanks ++ [']']))
  | table {members : List (Quoted × Tree)} {pieces : List (List Char)} {blanks : List Char}
      (h : WritesMembers members pieces) (hblanks : Blanks blanks) :
      Writes (.table members) ('\x7b' :: (joined pieces ++ blanks ++ ['\x7d']))

/-- The pieces write the items of a list. -/
inductive WritesItems : List Tree → List (List Char) → Prop
  | nil : WritesItems [] []
  | cons {tree : Tree} {items : List Tree} {before text behind : List Char}
      {pieces : List (List Char)} (hbefore : Blanks before) (h : Writes tree text)
      (hbehind : Blanks behind) (hs : WritesItems items pieces) :
      WritesItems (tree :: items) ((before ++ text ++ behind) :: pieces)

/-- The pieces write the members of a table. -/
inductive WritesMembers : List (Quoted × Tree) → List (List Char) → Prop
  | nil : WritesMembers [] []
  | cons {key : Quoted} {tree : Tree} {members : List (Quoted × Tree)}
      {before afterKey afterColon text behind : List Char} {pieces : List (List Char)}
      (hbefore : Blanks before) (hafterKey : Blanks afterKey) (hafterColon : Blanks afterColon)
      (h : Writes tree text) (hbehind : Blanks behind) (hs : WritesMembers members pieces) :
      WritesMembers ((key, tree) :: members)
        ((before ++ key.text ++ afterKey ++ ':' :: (afterColon ++ text ++ behind)) :: pieces)

end

/-- The text, blanks around it allowed, writes the tree. -/
def Tree.WrittenBy (tree : Tree) (text : String) : Prop :=
  ∃ before inner behind, Blanks before ∧ Blanks behind ∧ Writes tree inner ∧
    text.toList = before ++ inner ++ behind

/-! ### Writing a tree without blanks -/

theorem blanks_nil : Blanks [] := by
  intro c hc
  cases hc

mutual

/-- The shortest text that writes the tree. -/
def Tree.compact : Tree → List Char
  | .word w => w.text
  | .quoted q => q.text
  | .list items => '[' :: (joined (compactItems items) ++ [']'])
  | .table members => '\x7b' :: (joined (compactMembers members) ++ ['\x7d'])

/-- The pieces of the items. -/
def compactItems : List Tree → List (List Char)
  | [] => []
  | tree :: items => tree.compact :: compactItems items

/-- The pieces of the members. -/
def compactMembers : List (Quoted × Tree) → List (List Char)
  | [] => []
  | (key, tree) :: members => (key.text ++ ':' :: tree.compact) :: compactMembers members

end

mutual

theorem Tree.writes_compact : ∀ tree : Tree, Writes tree tree.compact
  | .word w => .word w
  | .quoted q => .quoted q
  | .list items => by
      have h := Writes.list (writesItems_compact items) blanks_nil
      rwa [List.append_nil] at h
  | .table members => by
      have h := Writes.table (writesMembers_compact members) blanks_nil
      rwa [List.append_nil] at h

theorem writesItems_compact : ∀ items : List Tree, WritesItems items (compactItems items)
  | [] => .nil
  | tree :: items => by
      have h := WritesItems.cons blanks_nil tree.writes_compact blanks_nil
        (writesItems_compact items)
      rwa [List.nil_append, List.append_nil] at h

theorem writesMembers_compact :
    ∀ members : List (Quoted × Tree), WritesMembers members (compactMembers members)
  | [] => .nil
  | (key, tree) :: members => by
      have h : WritesMembers ((key, tree) :: members) _ :=
        .cons blanks_nil blanks_nil blanks_nil tree.writes_compact blanks_nil
          (writesMembers_compact members)
      unfold compactMembers
      simpa only [List.nil_append, List.append_nil] using h

end

/-- Every tree is written by some text. -/
theorem Tree.writtenBy_compact (tree : Tree) : tree.WrittenBy (String.ofList tree.compact) :=
  ⟨[], tree.compact, [], blanks_nil, blanks_nil, tree.writes_compact, by
    rw [String.toList_ofList, List.nil_append, List.append_nil]⟩

/-! ### Reading a tree -/

mutual

/-- The document that a tree stands for, with at most so many lists and tables inside one
    another. -/
def Tree.read : Nat → Tree → Option Document
  | _, .word w => Reader.whole scalar w.text
  | _, .quoted q => q.read.map .text
  | 0, .list _ | 0, .table _ => none
  | depth + 1, .list items => (readItems depth items).map .list
  | depth + 1, .table members => (readMembers depth members).map .table

/-- The documents that items stand for, if every one stands for one. -/
def readItems : Nat → List Tree → Option (List Document)
  | _, [] => some []
  | depth, tree :: items => do
    let d ← tree.read depth
    let ds ← readItems depth items
    return d :: ds

/-- The members that members of a tree stand for, if every one stands for one. -/
def readMembers : Nat → List (Quoted × Tree) → Option (List (String × Document))
  | _, [] => some []
  | depth, (key, tree) :: members => do
    let s ← key.read
    let d ← tree.read depth
    let ds ← readMembers depth members
    return (s, d) :: ds

end

end SeriesQuery.Json
