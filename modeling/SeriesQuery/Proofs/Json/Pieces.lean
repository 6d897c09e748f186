/-
Lists of pieces.

The reader does not cut a text into tokens first: it reads values while it can, and where it cannot
go on it may stop in the middle of a token or give back a whole value.  What it leaves then begins
with something that no list or table can close: `Blocked`.  Every enclosing list or table fails on
that.  So if each piece of a list is read to its end or leaves the text blocked, then the list is
read to its closing bracket or not at all.
-/
import Mathlib.Data.List.DropRight
import SeriesQuery.Proofs.Json.Tokens

namespace SeriesQuery.Json

open Text Text.Reader

variable {α β : Type}

/-! ### Blanks -/

theorem dropWhile_blanks {blanks : List Char} (h : Blanks blanks) (s : List Char) :
    (blanks ++ s).dropWhile isSpace = s.dropWhile isSpace :=
  List.dropWhile_append_of_pos h

theorem isWordChar_of_isSpace {c : Char} (h : isSpace c = true) : isWordChar c = false := by
  simp [isWordChar, h]

/-- Blanks end a word. -/
theorem endsRun_blanks {blanks rest : List Char} (h : Blanks blanks)
    (hrest : EndsRun isWordChar rest) : EndsRun isWordChar (blanks ++ rest) := by
  cases blanks with
  | nil => exact hrest
  | cons c blanks => exact endsRun_cons (isWordChar_of_isSpace (h c List.mem_cons_self)) _

/-! ### What is left -/

/-- The text begins with something that is no blank and neither parts two values nor closes a list
    or a table. -/
def Starts (s : List Char) : Prop :=
  ∃ c x, s = c :: x ∧ isSpace c = false ∧ c ∉ [',', ']', '\x7d']

/-- Nothing that encloses the text can go on with it, for what stands behind the blanks starts
    something else. -/
def Blocked (s : List Char) : Prop :=
  Starts (s.dropWhile isSpace)

theorem starts_of_word {c : Char} {s : List Char} (hc : isWordChar c = true) : Starts (c :: s) := by
  simp only [isWordChar, Bool.and_eq_true, Bool.not_eq_true'] at hc
  refine ⟨c, s, rfl, hc.1, fun hmem => ?_⟩
  have hmark : isMark c = true := by
    simp only [List.mem_cons, List.not_mem_nil, or_false] at hmem
    rcases hmem with rfl | rfl | rfl <;> rfl
  rw [hmark] at hc
  exact absurd hc.2 (by decide)

namespace Starts

variable {s : List Char}

theorem append (h : Starts s) (rest : List Char) : Starts (s ++ rest) := by
  obtain ⟨c, x, rfl, hc⟩ := h
  exact ⟨c, x ++ rest, rfl, hc⟩

theorem dropWhile (h : Starts s) : s.dropWhile isSpace = s := by
  obtain ⟨c, x, rfl, hc, -⟩ := h
  exact List.dropWhile_cons_of_neg (by simp [hc])

theorem blocked (h : Starts s) : Blocked s := by
  unfold Blocked
  rwa [h.dropWhile]

end Starts

theorem Blocked.behind {blanks s : List Char} (hblanks : Blanks blanks) (h : Blocked s) :
    Blocked (blanks ++ s) := by
  unfold Blocked
  rwa [dropWhile_blanks hblanks]

theorem Blocked.dropWhile {s : List Char} (h : Blocked s) : Blocked (s.dropWhile isSpace) := by
  unfold Blocked
  rwa [List.dropWhile_idempotent]

/-! ### Reading a part of a text -/

/-- Before anything that ends a word, the reader reads the text and no more, or it leaves something
    that blocks what encloses the text. -/
def Reads (r : Reader α) (text : List Char) : Option α → Prop
  | some a => ∀ rest, EndsRun isWordChar rest → r (text ++ rest) = some (a, rest)
  | none => ∀ rest a left, EndsRun isWordChar rest → r (text ++ rest) = some (a, left) →
      Blocked left

/-- The same, but for the blanks behind the text. -/
def ReadsPiece (r : Reader α) (text : List Char) : Option α → Prop
  | some a => ∀ rest, EndsRun isWordChar rest → r (text ++ rest) = some (a, rest.dropWhile isSpace)
  | none => ∀ rest a left, EndsRun isWordChar rest → r (text ++ rest) = some (a, left) →
      Blocked left

theorem Reads.of_eq {r : Reader α} {text : List Char} {o : Option α}
    (h : ∀ rest, r (text ++ rest) = o.map fun a => (a, rest)) : Reads r text o := by
  cases o with
  | some a => exact fun rest _ => h rest
  | none =>
      intro rest a left _ hleft
      rw [h] at hleft
      cases hleft

/-- A reader between blanks. -/
def padded (r : Reader α) : Reader α := do
  spaces
  let a ← r
  spaces
  return a

theorem padded_apply (r : Reader α) (s : List Char) :
    padded r s = (r (s.dropWhile isSpace)).map fun (a, left) => (a, left.dropWhile isSpace) := by
  show (r (s.dropWhile isSpace)).bind _ = _
  cases r (s.dropWhile isSpace) <;> rfl

theorem Reads.padded {r : Reader α} {text : List Char} {o : Option α} {before behind : List Char}
    (h : Reads r text o) (hbefore : Blanks before) (hbehind : Blanks behind)
    (hstart : Starts text) :
    ReadsPiece (padded r) (before ++ text ++ behind) o := by
  have hskip (rest : List Char) :
      (before ++ text ++ behind ++ rest).dropWhile isSpace = text ++ (behind ++ rest) := by
    rw [List.append_assoc, List.append_assoc, dropWhile_blanks hbefore,
      (hstart.append _).dropWhile]
  cases o with
  | some a =>
      intro rest hrest
      rw [padded_apply, hskip, h _ (endsRun_blanks hbehind hrest)]
      exact congrArg (fun x => some (a, x)) (dropWhile_blanks hbehind rest)
  | none =>
      intro rest a left hrest hread
      rw [padded_apply, hskip] at hread
      obtain ⟨⟨a, left⟩, hread', heq⟩ := Option.map_eq_some_iff.mp hread
      cases heq
      exact (h _ a left (endsRun_blanks hbehind hrest) hread').dropWhile

/-! ### Lists of pieces -/

/-- What a reader reads from each of several pieces, if it can read every one. -/
inductive ReadsAll (r : Reader α) : List (List Char) → Option (List α) → Prop
  | nil : ReadsAll r [] (some [])
  | cons {piece : List Char} {pieces : List (List Char)} {o : Option α} {os : Option (List α)}
      (hstart : ∀ rest, Blocked (piece ++ rest)) (h : ReadsPiece r piece o)
      (hs : ReadsAll r pieces os) :
      ReadsAll r (piece :: pieces) (do
        let a ← o
        let as ← os
        return a :: as)

/-- The end of a list or a table, behind its items. -/
def closing (close : Char) (k : List α → β) (as : List α) : Reader β := do
  spaces
  Reader.char close
  return k as

/-- The next item, behind a comma. -/
def next (r : Reader α) : Reader α := do
  let _ ← Reader.char ','
  r

section Closing

variable {r : Reader α} {close : Char} {k : List α → β} {as : List α} {s : List Char}

theorem closing_of_blocked (hclose : close = ']' ∨ close = '\x7d') (h : Blocked s) :
    closing close k as s = none := by
  obtain ⟨c, x, hs, -, hc⟩ := h
  have hne : c ≠ close := by
    rintro rfl
    rcases hclose with rfl | rfl <;> exact hc (by decide)
  show (Reader.char close (s.dropWhile isSpace)).bind _ = none
  rw [hs, Reader.char, if_neg hne]
  rfl

theorem closing_of_close (hclose : close = ']' ∨ close = '\x7d') (rest : List Char) :
    closing close k as (close :: rest) = some (k as, rest) := by
  rcases hclose with rfl | rfl <;> rfl

theorem closing_of_comma (hclose : close = ']' ∨ close = '\x7d') (rest : List Char) :
    closing close k as (',' :: rest) = none := by
  rcases hclose with rfl | rfl <;> rfl

/-- No item follows what is blocked. -/
theorem next_of_blocked (h : Blocked s) : next r s = none := by
  obtain ⟨c, x, hs, -, hc⟩ := h
  cases s with
  | nil => rfl
  | cons d s =>
      have hd : d ≠ ',' := by
        rintro rfl
        rw [List.dropWhile_cons_of_neg (by decide)] at hs
        cases hs
        exact hc (by decide)
      show (Reader.char ',' (d :: s)).bind _ = none
      rw [Reader.char, if_neg hd]
      rfl

/-- Once something blocks a list, it is not read. -/
theorem repeated_closing_of_blocked (hclose : close = ']' ∨ close = '\x7d') (h : Blocked s) :
    (repeated (next r) >>= closing close k) s = none := by
  rw [bind_apply, repeated_of_eq_none (next_of_blocked h)]
  exact closing_of_blocked hclose h

/-- Reading one more item and then closing. -/
theorem repeated_closing_of_next {a : α} {left : List Char} (h : next r s = some (a, left))
    (hlt : left.length < s.length) :
    (repeated (next r) >>= closing close k) s =
      (repeated (next r) >>= closing close fun as => k (a :: as)) left := by
  rw [bind_apply, bind_apply, repeated_of_eq_some h hlt]
  cases repeated (next r) left <;> rfl

/-- What stands behind an item of a list, up to the end of the list and further. -/
def behindItem (pieces : List (List Char)) (blanks : List Char) (close : Char) (rest : List Char) :
    List Char :=
  pieces.flatMap (',' :: ·) ++ blanks ++ close :: rest

theorem behindItem_cons (piece : List Char) (pieces : List (List Char)) (blanks rest : List Char) :
    behindItem (piece :: pieces) blanks close rest =
      ',' :: (piece ++ behindItem pieces blanks close rest) := by
  simp only [behindItem, List.flatMap_cons, List.cons_append, List.append_assoc]

/-- What stands behind an item ends a word. -/
theorem endsRun_behindItem (hclose : close = ']' ∨ close = '\x7d') (pieces : List (List Char))
    {blanks : List Char} (hblanks : Blanks blanks) (rest : List Char) :
    EndsRun isWordChar (behindItem pieces blanks close rest) := by
  cases pieces with
  | cons piece pieces => exact endsRun_cons (by decide) _
  | nil =>
      refine endsRun_blanks hblanks (endsRun_cons ?_ rest)
      rcases hclose with rfl | rfl <;> decide

/-- Behind an item, the others are read to the end of the list, or the list is not read. -/
theorem ReadsAll.repeated_closing {pieces : List (List Char)} {os : Option (List α)}
    (h : ReadsAll r pieces os) (hclose : close = ']' ∨ close = '\x7d') {blanks : List Char}
    (hblanks : Blanks blanks) (rest : List Char) (k : List α → β) :
    (repeated (next r) >>= closing close k)
        ((behindItem pieces blanks close rest).dropWhile isSpace) =
      os.map fun as => (k as, rest) := by
  induction h generalizing k with
  | nil =>
      have hend : (behindItem [] blanks close rest).dropWhile isSpace = close :: rest := by
        refine (dropWhile_blanks hblanks (close :: rest)).trans ?_
        rcases hclose with rfl | rfl <;> rfl
      have hnext : next r (close :: rest) = none := by
        rcases hclose with rfl | rfl <;> rfl
      rw [hend, bind_apply, repeated_of_eq_none hnext]
      exact closing_of_close hclose rest
  | @cons piece pieces o os _ h _ ih =>
      rw [behindItem_cons, List.dropWhile_cons_of_neg (by decide)]
      have hends := endsRun_behindItem hclose pieces hblanks rest
      generalize behindItem pieces blanks close rest = behind at hends ih
      cases o with
      | some a =>
          have hnext : next r (',' :: (piece ++ behind)) = some (a, behind.dropWhile isSpace) :=
            h behind hends
          have hlt : (behind.dropWhile isSpace).length < (',' :: (piece ++ behind)).length := by
            have hle := (List.dropWhile_sublist (l := behind) isSpace).length_le
            simp only [List.length_cons, List.length_append]
            omega
          rw [repeated_closing_of_next hnext hlt, ih]
          cases os <;> rfl
      | none =>
          cases hnext : next r (',' :: (piece ++ behind)) with
          | none =>
              rw [bind_apply, repeated_of_eq_none hnext]
              exact closing_of_comma hclose _
          | some x =>
              obtain ⟨a, left⟩ := x
              have hblocked : Blocked left := h behind a left hends hnext
              by_cases hlt : left.length < (',' :: (piece ++ behind)).length
              · rw [repeated_closing_of_next hnext hlt]
                exact repeated_closing_of_blocked hclose hblocked
              · rw [bind_apply, repeated, hnext]
                simp only [hlt, if_false]
                exact closing_of_comma hclose _

theorem separated_of_eq_some {a : α} {left : List Char} (h : r s = some (a, left)) :
    separated r (Reader.char ',') s =
      (repeated (next r) left).map fun (as, x) => (a :: as, x) := by
  unfold separated
  rw [bind_apply, optional_apply, h]
  show (repeated (next r) left).bind _ = (repeated (next r) left).map _
  cases repeated (next r) left <;> rfl

/-- Reading the first item, the others and then closing. -/
theorem separated_closing_of_item {a : α} {left : List Char} (h : r s = some (a, left)) :
    (separated r (Reader.char ',') >>= closing close k) s =
      (repeated (next r) >>= closing close fun as => k (a :: as)) left := by
  rw [bind_apply, bind_apply, separated_of_eq_some h]
  cases repeated (next r) left <;> rfl

/-- The items of a list are read to its end, or the list is not read. -/
theorem ReadsAll.separated_closing {pieces : List (List Char)} {os : Option (List α)}
    (h : ReadsAll r pieces os) (hclose : close = ']' ∨ close = '\x7d') {blanks : List Char}
    (hblanks : Blanks blanks) (rest : List Char) (hrefuses : r (blanks ++ close :: rest) = none)
    (k : List α → β) :
    (separated r (Reader.char ',') >>= closing close k)
        (joined pieces ++ blanks ++ close :: rest) =
      os.map fun as => (k as, rest) := by
  cases h with
  | nil =>
      show (separated r (Reader.char ',') >>= closing close k) (blanks ++ close :: rest) = _
      rw [bind_apply, separated_of_eq_none hrefuses]
      show (Reader.char close ((blanks ++ close :: rest).dropWhile isSpace)).bind _ = _
      rw [dropWhile_blanks hblanks]
      rcases hclose with rfl | rfl <;> rfl
  | @cons piece pieces o os hstart h hs =>
      have hends := endsRun_behindItem hclose pieces hblanks rest
      have hsplit : joined (piece :: pieces) ++ blanks ++ close :: rest =
          piece ++ behindItem pieces blanks close rest := by
        simp only [joined, behindItem, List.append_assoc]
      rw [hsplit]
      cases o with
      | some a =>
          rw [separated_closing_of_item (h _ hends), hs.repeated_closing hclose hblanks]
          cases os <;> rfl
      | none =>
          cases hread : r (piece ++ behindItem pieces blanks close rest) with
          | none =>
              rw [bind_apply, separated_of_eq_none hread]
              exact closing_of_blocked hclose (hstart _)
          | some x =>
              obtain ⟨a, left⟩ := x
              rw [separated_closing_of_item hread]
              exact repeated_closing_of_blocked hclose (h _ a left hends hread)

end Closing

end SeriesQuery.Json
