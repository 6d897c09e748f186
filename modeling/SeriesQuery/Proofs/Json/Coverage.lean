/-
Every text that is read writes a tree.

The syntax of texts leaves nothing out: whatever a reader takes off the front of a text has the
form that the syntax asks for.  `ReadsOnly` says so of one reader and one form, and is passed on
from the readers of tokens to those of values and lists, by induction on the depth of the value.
-/
import SeriesQuery.Proofs.Json.Reading

namespace SeriesQuery.Json

open Text Text.Reader

variable {α β : Type}

/-- What the reader takes off the front of a text has the form `W`. -/
def ReadsOnly (r : Reader α) (W : List Char → Prop) : Prop :=
  ∀ ⦃s : List Char⦄ ⦃a : α⦄ ⦃rest : List Char⦄, r s = some (a, rest) →
    ∃ text, s = text ++ rest ∧ W text

/-! ### Quoted tokens -/

theorem exists_textTail_of_unicode {pending : Option Nat} {a b c d : Char}
    {r cs rest : List Char}
    (h : textTail pending ('\\' :: 'u' :: a :: b :: c :: d :: r) = some (cs, rest)) :
    ∃ n, hexValue? [a, b, c, d] = some n ∧ ∃ cs',
      textTail none r = some (cs', rest) ∨ textTail (some n) r = some (cs', rest) := by
  rw [textTail_unicode] at h
  obtain ⟨n, hn, h⟩ := Option.bind_eq_some_iff.mp h
  refine ⟨n, hn, ?_⟩
  have hbehind {e : Char} (h : (textTail none r).map (prepend e) = some (cs, rest)) :
      ∃ cs', textTail none r = some (cs', rest) := by
    obtain ⟨⟨cs', rest'⟩, hr, heq⟩ := Option.map_eq_some_iff.mp h
    cases heq
    exact ⟨cs', hr⟩
  cases pending with
  | some high =>
      dsimp only at h
      split at h
      · exact (hbehind h).imp fun _ => .inl
      · cases h
  | none =>
      dsimp only at h
      split at h
      · exact ⟨cs, .inr h⟩
      · split at h
        · cases h
        · exact (hbehind h).imp fun _ => .inl

/-- What is read as the tail of a quoted text is a body and the quote behind it. -/
theorem exists_body_of_textTail {pending : Option Nat} {s cs rest : List Char}
    (h : textTail pending s = some (cs, rest)) :
    ∃ body, isBody body = true ∧ s = body ++ '"' :: rest := by
  induction pending, s using textTail.induct generalizing cs with
  | case1 pending a b c d r ih ih' =>
      obtain ⟨n, hn, cs', h⟩ := exists_textTail_of_unicode h
      obtain ⟨body, hbody, rfl⟩ := h.elim (ih ·) (ih' n ·)
      refine ⟨'\\' :: 'u' :: a :: b :: c :: d :: body, ?_, rfl⟩
      rw [isBody_escape]
      exact (isBody_of_digits hn).trans hbody
  | case2 s high hs =>
      rw [textTail.eq_2 s high hs] at h
      cases h
  | case3 => cases h
  | case4 r =>
      cases h
      exact ⟨[], rfl, rfl⟩
  | case5 c r hu ih =>
      rw [textTail.eq_5 c r hu] at h
      obtain ⟨e, -, h⟩ := Option.bind_eq_some_iff.mp h
      obtain ⟨⟨cs', rest'⟩, hr, heq⟩ := Option.bind_eq_some_iff.mp h
      cases heq
      obtain ⟨body, hbody, rfl⟩ := ih hr
      exact ⟨'\\' :: c :: body, hbody, rfl⟩
  | case6 c r hunicode hquote hescape hcontrol =>
      rw [textTail.eq_6 c r hunicode hquote hescape, if_pos hcontrol] at h
      cases h
  | case7 c r hunicode hquote hescape hcontrol ih =>
      rw [textTail.eq_6 c r hunicode hquote hescape, if_neg hcontrol] at h
      obtain ⟨⟨cs', rest'⟩, hr, heq⟩ := Option.bind_eq_some_iff.mp h
      cases heq
      obtain ⟨body, hbody, rfl⟩ := ih hr
      simp only [Bool.or_eq_true, beq_iff_eq, not_or] at hcontrol
      exact ⟨c :: body, (isBody_plain hquote hcontrol.2 body).trans hbody, rfl⟩

theorem readsOnly_quotedText : ReadsOnly quotedText fun text => ∃ q : Quoted, q.text = text := by
  intro s a rest h
  unfold quotedText at h
  rw [bind_apply] at h
  obtain ⟨⟨_, left⟩, hquote, h⟩ := Option.bind_eq_some_iff.mp h
  cases char_eq_some_iff.mp hquote
  have h : (textTail none left).bind _ = _ := h
  obtain ⟨⟨cs, rest'⟩, htail, heq⟩ := Option.bind_eq_some_iff.mp h
  cases heq
  obtain ⟨body, hbody, rfl⟩ := exists_body_of_textTail htail
  exact ⟨_, (Quoted.text_append ⟨body, hbody⟩ rest).symm, ⟨body, hbody⟩, rfl⟩

/-! ### Words -/

theorem takesSome_number : TakesSome number := by
  rw [number_eq]
  refine .behind (Local.char (p := isWordChar) rfl).optional.takes fun minus => ?_
  refine .bind ?_ fun whole => (local_numberTail minus.isSome whole).takes
  rw [wholeDigits_eq]
  exact ((TakesSome.char '0').bind fun _ => (Local.pure (p := isWordChar) _).takes).orElse
    (.span1 _)

theorem takesSome_unquoted : TakesSome unquoted := by
  have hword {c : Char} {w : List Char} (hw : w.all isWordChar = true) (d : Document) :
      TakesSome (do Reader.word (c :: w); return d) :=
    (TakesSome.bind (.char c) fun _ => (Local.word hw).takes).bind fun _ =>
      (Local.pure (p := isWordChar) d).takes
  exact takesSome_number.orElse ((hword rfl _).orElse ((hword rfl _).orElse (hword rfl _)))

/-- What is read as a word is one. -/
theorem readsOnly_unquoted : ReadsOnly unquoted fun text => ∃ w : Word, w.text = text := by
  intro s d rest h
  obtain ⟨taken, rfl, htaken⟩ := local_unquoted.takes h
  refine ⟨taken, rfl, ⟨taken, ?_, htaken⟩, rfl⟩
  rintro rfl
  exact absurd (takesSome_unquoted h) (Nat.lt_irrefl _)

/-! ### Lists of pieces -/

/-- The blanks at the start of a text, and what stands behind them. -/
theorem exists_blanks (s : List Char) :
    ∃ blanks, Blanks blanks ∧ s = blanks ++ s.dropWhile isSpace :=
  ⟨s.takeWhile isSpace, List.all_eq_true.mp List.all_takeWhile,
    List.takeWhile_append_dropWhile.symm⟩

section Pieces

variable {r : Reader α} {W : List Char → Prop}

theorem ReadsOnly.next (hr : ReadsOnly r W) :
    ReadsOnly (next r) fun text => ∃ piece, text = ',' :: piece ∧ W piece := by
  intro s a rest h
  unfold Json.next at h
  rw [bind_apply] at h
  obtain ⟨⟨_, left⟩, hcomma, hread⟩ := Option.bind_eq_some_iff.mp h
  cases char_eq_some_iff.mp hcomma
  obtain ⟨piece, rfl, hpiece⟩ := hr hread
  exact ⟨',' :: piece, rfl, piece, rfl, hpiece⟩

/-- The items behind the first are pieces, each behind a comma. -/
theorem ReadsOnly.repeated (hr : ReadsOnly r W) {s rest : List Char} {as : List α}
    (h : Reader.repeated (Json.next r) s = some (as, rest)) :
    ∃ pieces : List (List Char), s = pieces.flatMap (',' :: ·) ++ rest ∧ ∀ p ∈ pieces, W p := by
  induction hlength : s.length using Nat.strongRecOn generalizing s as with
  | _ length ih =>
      have hstop : s = rest → ∃ pieces : List (List Char),
          s = pieces.flatMap (',' :: ·) ++ rest ∧ ∀ p ∈ pieces, W p := by
        rintro rfl
        exact ⟨[], rfl, by simp⟩
      rw [Reader.repeated] at h
      split at h
      · rename_i a between hnext
        split at h
        · rename_i hlt
          obtain ⟨⟨as', rest'⟩, hbetween, heq⟩ := Option.map_eq_some_iff.mp h
          cases heq
          obtain ⟨pieces, rfl, hpieces⟩ := ih _ (hlength ▸ hlt) hbetween rfl
          obtain ⟨text, rfl, piece, rfl, hpiece⟩ := hr.next hnext
          refine ⟨piece :: pieces, ?_, List.forall_mem_cons.mpr ⟨hpiece, hpieces⟩⟩
          rw [List.flatMap_cons, List.append_assoc]
        · cases h
          exact hstop rfl
      · cases h
        exact hstop rfl

theorem ReadsOnly.separated (hr : ReadsOnly r W) {s rest : List Char} {as : List α}
    (h : Reader.separated r (Reader.char ',') s = some (as, rest)) :
    ∃ pieces : List (List Char), s = joined pieces ++ rest ∧ ∀ p ∈ pieces, W p := by
  cases hs : r s with
  | none =>
      rw [separated_of_eq_none hs] at h
      cases h
      exact ⟨[], rfl, by simp⟩
  | some x =>
      obtain ⟨a, between⟩ := x
      rw [separated_of_eq_some hs] at h
      obtain ⟨⟨as', rest'⟩, hbetween, heq⟩ := Option.map_eq_some_iff.mp h
      cases heq
      obtain ⟨pieces, rfl, hpieces⟩ := hr.repeated hbetween
      obtain ⟨piece, rfl, hpiece⟩ := hr hs
      refine ⟨piece :: pieces, ?_, List.forall_mem_cons.mpr ⟨hpiece, hpieces⟩⟩
      rw [joined, List.append_assoc]

/-- What a list or a table is read from, behind its opening bracket. -/
theorem ReadsOnly.enclosed (hr : ReadsOnly r W) {close : Char} {k : List α → β} :
    ReadsOnly (Reader.separated r (Reader.char ',') >>= closing close k) fun text =>
      ∃ (pieces : List (List Char)) (blanks : List Char), (∀ p ∈ pieces, W p) ∧ Blanks blanks ∧
        text = joined pieces ++ blanks ++ [close] := by
  intro s b rest h
  rw [bind_apply] at h
  obtain ⟨⟨as, left⟩, hitems, hclose⟩ := Option.bind_eq_some_iff.mp h
  obtain ⟨pieces, rfl, hpieces⟩ := hr.separated hitems
  obtain ⟨blanks, hblanks, hleft⟩ := exists_blanks left
  have hclose : (Reader.char close (left.dropWhile isSpace)).bind _ = _ := hclose
  obtain ⟨⟨_, left'⟩, hchar, heq⟩ := Option.bind_eq_some_iff.mp hclose
  cases heq
  refine ⟨joined pieces ++ blanks ++ [close], ?_, pieces, blanks, hpieces, hblanks, rfl⟩
  rw [hleft, char_eq_some_iff.mp hchar]
  simp only [List.append_assoc, List.singleton_append]

end Pieces

/-! ### Values -/

/-- The piece writes an item of a list. -/
def IsItem (piece : List Char) : Prop :=
  ∃ tree, WritesItems [tree] [piece]

/-- The piece writes a member of a table. -/
def IsMember (piece : List Char) : Prop :=
  ∃ key tree, WritesMembers [(key, tree)] [piece]

theorem exists_writesItems {pieces : List (List Char)} (h : ∀ p ∈ pieces, IsItem p) :
    ∃ items, WritesItems items pieces := by
  induction pieces with
  | nil => exact ⟨[], .nil⟩
  | cons piece pieces ih =>
      obtain ⟨hpiece, hpieces⟩ := List.forall_mem_cons.mp h
      obtain ⟨items, hitems⟩ := ih hpieces
      obtain ⟨tree, htree⟩ := hpiece
      cases htree with
      | cons hbefore htree hbehind _ => exact ⟨tree :: items, .cons hbefore htree hbehind hitems⟩

theorem exists_writesMembers {pieces : List (List Char)} (h : ∀ p ∈ pieces, IsMember p) :
    ∃ members, WritesMembers members pieces := by
  induction pieces with
  | nil => exact ⟨[], .nil⟩
  | cons piece pieces ih =>
      obtain ⟨hpiece, hpieces⟩ := List.forall_mem_cons.mp h
      obtain ⟨members, hmembers⟩ := ih hpieces
      obtain ⟨key, tree, htree⟩ := hpiece
      cases htree with
      | cons hbefore hafterKey hafterColon htree hbehind _ =>
          exact ⟨(key, tree) :: members,
            .cons hbefore hafterKey hafterColon htree hbehind hmembers⟩

theorem ReadsOnly.padded {item : Reader Document}
    (h : ReadsOnly item fun text => ∃ tree, Writes tree text) :
    ReadsOnly (padded item) IsItem := by
  intro s d rest hread
  rw [padded_apply] at hread
  obtain ⟨⟨d', left⟩, hitem, heq⟩ := Option.map_eq_some_iff.mp hread
  cases heq
  obtain ⟨before, hbefore, hs⟩ := exists_blanks s
  obtain ⟨behind, hbehind, hleft⟩ := exists_blanks left
  obtain ⟨text, htext, tree, htree⟩ := h hitem
  refine ⟨before ++ text ++ behind, ?_, tree, .cons hbefore htree hbehind .nil⟩
  rw [hs, htext, List.append_assoc, List.append_assoc, ← hleft]

theorem ReadsOnly.member {item : Reader Document}
    (h : ReadsOnly item fun text => ∃ tree, Writes tree text) :
    ReadsOnly (member item) IsMember := by
  intro s x rest hread
  have hread : (quotedText (s.dropWhile isSpace)).bind _ = _ := hread
  obtain ⟨⟨key, afterKey⟩, hkey, hread⟩ := Option.bind_eq_some_iff.mp hread
  have hread : (Reader.char ':' (afterKey.dropWhile isSpace)).bind _ = _ := hread
  obtain ⟨⟨_, afterColon⟩, hcolon, hread⟩ := Option.bind_eq_some_iff.mp hread
  have hread : (item (afterColon.dropWhile isSpace)).bind _ = _ := hread
  obtain ⟨⟨d, left⟩, hitem, heq⟩ := Option.bind_eq_some_iff.mp hread
  cases heq
  obtain ⟨b, hb, hs⟩ := exists_blanks s
  obtain ⟨b', hb', hafterKey⟩ := exists_blanks afterKey
  obtain ⟨b'', hb'', hafterColon⟩ := exists_blanks afterColon
  obtain ⟨behind, hbehind, hleft⟩ := exists_blanks left
  obtain ⟨_, hkeyText, q, rfl⟩ := readsOnly_quotedText hkey
  obtain ⟨text, htext, tree, htree⟩ := h hitem
  refine ⟨_, ?_, q, tree, .cons hb hb' hb'' htree hbehind .nil⟩
  rw [hs, hkeyText, hafterKey, char_eq_some_iff.mp hcolon, hafterColon, htext]
  simp only [List.append_assoc, List.cons_append]
  rw [← hleft]

theorem readsOnly_scalar : ReadsOnly scalar fun text => ∃ tree, Writes tree text := by
  intro s d rest h
  rw [scalar_eq, orElse_apply, bind_apply] at h
  cases hquoted : quotedText s with
  | none =>
      rw [hquoted] at h
      obtain ⟨text, hs, w, rfl⟩ := readsOnly_unquoted h
      exact ⟨w.text, hs, .word w, .word w⟩
  | some x =>
      rw [hquoted] at h
      cases h
      obtain ⟨text, hs, q, rfl⟩ := readsOnly_quotedText hquoted
      exact ⟨q.text, hs, .quoted q, .quoted q⟩

/-- What is read as a value writes a tree. -/
theorem readsOnly_value (depth : Nat) :
    ReadsOnly (value depth) fun text => ∃ tree, Writes tree text := by
  induction depth with
  | zero => exact readsOnly_scalar
  | succ depth ih =>
      intro s d rest h
      unfold value at h
      split at h
      · rw [listTail_eq] at h
        obtain ⟨text, rfl, pieces, blanks, hpieces, hblanks, rfl⟩ := ih.padded.enclosed h
        obtain ⟨items, hitems⟩ := exists_writesItems hpieces
        exact ⟨_, rfl, .list items, .list hitems hblanks⟩
      · rw [tableTail_eq] at h
        obtain ⟨text, rfl, pieces, blanks, hpieces, hblanks, rfl⟩ := ih.member.enclosed h
        obtain ⟨members, hmembers⟩ := exists_writesMembers hpieces
        exact ⟨_, rfl, .table members, .table hmembers hblanks⟩
      · exact readsOnly_scalar h

/-- **Every text that is read writes a tree.** -/
theorem exists_writtenBy {text : String} {d : Document} (h : document? text = some d) :
    ∃ tree : Tree, tree.WrittenBy text := by
  have hread : padded (value maxDepth) text.toList = some (d, []) := whole_eq_some_iff.mp h
  obtain ⟨piece, htext, tree, hpiece⟩ := (readsOnly_value maxDepth).padded hread
  rw [List.append_nil] at htext
  cases hpiece with
  | cons hbefore h hbehind _ => exact ⟨tree, _, _, _, hbefore, hbehind, h, htext⟩

end SeriesQuery.Json
