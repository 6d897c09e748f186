/-
A printed list of texts reads back.

Between the quotes every character stands for itself or as an escape, and either way it is read as
that one character.  So a quoted text is a token that stands for the text, and the printed list is
written by a tree of such tokens, with the line breaks and the indentation as its blanks.
-/
import SeriesQuery.Json.Printer
import SeriesQuery.Proofs.Json.Reading
import SeriesQuery.Proofs.Statement.Phrases

namespace SeriesQuery.Json

open Text Text.Reader

/-! ### Characters -/

/-- A way to write one character between quotes, so that it is read as that character. -/
structure WritesChar (c : Char) (written : List Char) : Prop where
  /-- It leaves the rest of the body as closed as it was. -/
  closed : ∀ r, isBody (written ++ r) = isBody r
  /-- It is read as the character. -/
  read : ∀ r, textTail none (written ++ r) = (textTail none r).map (prepend c)

theorem writesChar_escape {c e : Char} (he : escapedChar? e = some c) (hu : e ≠ 'u') :
    WritesChar c ['\\', e] where
  closed := isBody_escape e
  read r := by
    show textTail none ('\\' :: e :: r) = _
    rw [textTail_escape hu, he]
    rfl

theorem hexValue?_twoHexDigits :
    ∀ n < 0x20, hexValue? (['0', '0'] ++ twoHexDigits n) = some n := by
  decide

theorem writesChar_control {c : Char} (hc : c.toNat < 0x20) :
    WritesChar c (['\\', 'u', '0', '0'] ++ twoHexDigits c.toNat) := by
  have hdigits := hexValue?_twoHexDigits c.toNat hc
  refine ⟨fun r => ?_, fun r => ?_⟩
  · show isBody ('\\' :: 'u' :: (['0', '0'] ++ twoHexDigits c.toNat ++ r)) = _
    rw [isBody_escape, isBody_of_digits hdigits]
  · have hhigh : isHighSurrogate c.toNat = false := by
      simp only [isHighSurrogate, Bool.and_eq_false_iff, decide_eq_false_iff_not]
      omega
    have hlow : isLowSurrogate c.toNat = false := by
      simp only [isLowSurrogate, Bool.and_eq_false_iff, decide_eq_false_iff_not]
      omega
    refine (textTail_unicode none '0' '0' _ _ r).trans ?_
    rw [show hexValue? ['0', '0', _, _] = some c.toNat from hdigits, Option.bind_some]
    simp only [hhigh, hlow, Bool.false_eq_true, if_false, Char.ofNat_toNat]

theorem writesChar_plain {c : Char} (hquote : c ≠ '"') (hbackslash : c ≠ '\\')
    (hcontrol : ¬c.toNat < 0x20) : WritesChar c [c] where
  closed := isBody_plain hquote hbackslash
  read r := by
    rw [List.singleton_append, textTail_plain hquote hbackslash, if_neg hcontrol]

/-- Every character is written so that it is read back. -/
theorem writesChar_escapeChar (c : Char) : WritesChar c (escapeChar c) := by
  unfold escapeChar
  by_cases hquote : c = '"'
  · subst hquote
    exact writesChar_escape rfl (by decide)
  by_cases hbackslash : c = '\\'
  · subst hbackslash
    exact writesChar_escape rfl (by decide)
  rw [if_neg hquote, if_neg hbackslash]
  repeat' split
  · exact writesChar_escape (by subst c; rfl) (by decide)
  · exact writesChar_escape (by subst c; rfl) (by decide)
  · exact writesChar_escape (by subst c; rfl) (by decide)
  · exact writesChar_escape (by subst c; rfl) (by decide)
  · exact writesChar_escape (by subst c; rfl) (by decide)
  · rename_i h
    exact writesChar_control h
  · rename_i h
    exact writesChar_plain hquote hbackslash h

/-! ### Texts -/

theorem isBody_escaped (cs : List Char) : isBody (cs.flatMap escapeChar) = true := by
  induction cs with
  | nil => rfl
  | cons c cs ih => rw [List.flatMap_cons, (writesChar_escapeChar c).closed, ih]

theorem textTail_escaped (cs rest : List Char) :
    textTail none (cs.flatMap escapeChar ++ '"' :: rest) = some (cs, rest) := by
  induction cs with
  | nil => rfl
  | cons c cs ih =>
      rw [List.flatMap_cons, List.append_assoc, (writesChar_escapeChar c).read, ih]
      rfl

/-- The token that a text is printed as. -/
def quotedOf (s : String) : Quoted :=
  ⟨s.toList.flatMap escapeChar, isBody_escaped s.toList⟩

theorem toList_quote (s : String) : (quote s).toList = (quotedOf s).text := by
  simp only [quote, String.toList_append, String.toList_ofList]
  rfl

/-- A printed text reads back. -/
theorem read_quotedOf (s : String) : (quotedOf s).read = some s := by
  have h := (quotedOf s).quotedText_append []
  have hread : quotedText ((quotedOf s).text ++ []) = some (s, []) := by
    rw [Quoted.text_append]
    show (textTail none (s.toList.flatMap escapeChar ++ '"' :: [])).bind _ = _
    rw [textTail_escaped]
    exact congrArg (fun t => some (t, [])) String.ofList_toList
  rw [hread] at h
  cases hs : (quotedOf s).read with
  | none =>
      rw [hs] at h
      cases h
  | some s' =>
      rw [hs] at h
      cases h
      rfl

/-! ### Lists -/

/-- The tree that a list of texts is printed as. -/
def treeOf (texts : List String) : Tree :=
  .list (texts.map fun s => .quoted (quotedOf s))

theorem readItems_texts (depth : Nat) (texts : List String) :
    readItems depth (texts.map fun s => .quoted (quotedOf s)) = some (texts.map .text) := by
  induction texts with
  | nil => cases depth <;> rfl
  | cons s texts ih =>
      have hs : (Tree.quoted (quotedOf s)).read depth = some (.text s) := by
        cases depth <;> exact congrArg (Option.map Document.text) (read_quotedOf s)
      rw [List.map_cons, readItems, hs, ih]
      rfl

/-- The line that a text of a list is printed on. -/
def line (s : String) : List Char :=
  ['\n', ' ', ' '] ++ (quotedOf s).text

theorem writesItems_lines (texts : List String) :
    WritesItems (texts.map fun s => .quoted (quotedOf s)) (texts.map line) := by
  have hbefore : Blanks ['\n', ' ', ' '] := by
    intro c hc
    simp only [List.mem_cons, List.not_mem_nil, or_false] at hc
    rcases hc with rfl | rfl | rfl <;> rfl
  induction texts with
  | nil => exact .nil
  | cons s texts ih =>
      have h := WritesItems.cons hbefore (.quoted (quotedOf s)) blanks_nil ih
      rwa [List.append_nil] at h

theorem writtenBy_textList (texts : List String) {behind : String}
    (hbehind : Blanks behind.toList) :
    (treeOf texts).WrittenBy (textList texts ++ behind) := by
  have hline : Blanks ['\n'] := by
    intro c hc
    rw [List.mem_singleton.mp hc]
    rfl
  cases texts with
  | nil =>
      refine ⟨[], _, behind.toList, blanks_nil, hbehind, .list .nil blanks_nil, ?_⟩
      rw [String.toList_append]
      rfl
  | cons s texts =>
      refine ⟨[], _, behind.toList, blanks_nil, hbehind,
        .list (writesItems_lines (s :: texts)) hline, ?_⟩
      have hlist : textList (s :: texts) =
          "[\n" ++ ",\n".intercalate (("  " ++ quote s) :: texts.map fun s => "  " ++ quote s) ++
            "\n]" := rfl
      rw [hlist]
      simp only [String.toList_append, toList_intercalate_cons, toList_quote, List.flatMap_map,
        joined, List.map_cons, List.append_assoc, List.nil_append, List.cons_append,
        line]
      rfl

/-- **A printed list of texts reads back as the same texts, in order, whatever characters they
    have.** -/
theorem document?_textList (texts : List String) {behind : String}
    (hbehind : Blanks behind.toList) :
    document? (textList texts ++ behind) = some (.list (texts.map .text)) := by
  rw [(writtenBy_textList texts hbehind).document?]
  show (readItems 126 _).map _ = _
  rw [readItems_texts]
  rfl

end SeriesQuery.Json
