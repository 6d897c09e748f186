/-
Quoted identifiers show where they end.

Between the quotes a quote of the name stands behind a backslash, and so does a backslash.  A
reader that takes a backslash together with the character behind it therefore meets the closing
quote first as a quote that stands alone, whatever the name and whatever comes after it.
-/
import SeriesQuery.Identifier
import SeriesQuery.Proofs.Text.Delimited

namespace SeriesQuery.Identifier

open Text

/-! ### The characters of a quoted identifier -/

theorem toList_quote (name : String) :
    (quote name).toList = '"' :: (escape name.toList ++ ['"']) := by
  unfold quote
  simp

theorem mem_of_mem_escape {x : Char} {s : List Char} (h : x ∈ escape s) : x = '\\' ∨ x ∈ s := by
  induction s with
  | nil => cases h
  | cons c s ih =>
      unfold escape at h
      have hrest : x ∈ escape s → x = '\\' ∨ x ∈ c :: s := by
        intro hx
        exact (ih hx).imp_right (List.mem_cons_of_mem _)
      split at h
      · rcases List.mem_cons.mp h with rfl | h
        · exact Or.inl rfl
        · rcases List.mem_cons.mp h with rfl | h
          · exact Or.inr List.mem_cons_self
          · exact hrest h
      · rcases List.mem_cons.mp h with rfl | h
        · exact Or.inr List.mem_cons_self
        · exact hrest h

/-- Quoting brings in no character but quotes and backslashes. -/
theorem mem_of_mem_quote {x : Char} {name : String} (h : x ∈ (quote name).toList) :
    x = '"' ∨ x = '\\' ∨ x ∈ name.toList := by
  rw [toList_quote, List.mem_cons, List.mem_append, List.mem_singleton] at h
  rcases h with h | h | h
  · exact Or.inl h
  · exact Or.inr (mem_of_mem_escape h)
  · exact Or.inl h

/-! ### Telling identifiers apart -/

/-- Before any text a reader takes a quoted identifier off the front, and nothing else. -/
theorem read?_quote_append (name : String) (rest : List Char) :
    read? ((quote name).toList ++ rest) = some (name.toList, rest) := by
  rw [toList_quote, List.cons_append, List.append_assoc, List.singleton_append]
  exact unescape?_escape_append name.toList rest

/-- Any text may follow a quoted identifier. -/
theorem selfDelimiting_quote :
    SelfDelimiting (fun name => (quote name).toList) (fun _ => True) := by
  intro a b r s _ _ h
  have hread := read?_quote_append a r
  rw [h, read?_quote_append, Option.some.injEq, Prod.mk.injEq] at hread
  exact ⟨String.toList_inj.mp hread.1.symm, hread.2.symm⟩

/-! ### Reading back -/

theorem unescape?_plain {c : Char} (hquote : c ≠ '"') (hbackslash : c ≠ '\\') (r : List Char) :
    unescape? (c :: r) = (unescape? r).map fun (name, rest) => (c :: name, rest) :=
  unescape?.eq_5 c r hquote (fun h => absurd h hbackslash) fun _ _ h => absurd h hbackslash

/-- What has been read is read just so before any further text. -/
theorem unescape?_append {s name rest : List Char} (h : unescape? s = some (name, rest))
    (more : List Char) : unescape? (s ++ more) = some (name, rest ++ more) := by
  induction s using unescape?.induct generalizing name with
  | case1 => cases h
  | case2 r =>
      cases h
      rfl
  | case3 => cases h
  | case4 c r ih =>
      obtain ⟨⟨name', rest'⟩, hr, heq⟩ := Option.map_eq_some_iff.mp h
      cases heq
      show (unescape? (r ++ more)).map _ = _
      rw [ih hr]
      rfl
  | case5 c r hquote hend hescape ih =>
      have hbackslash : c ≠ '\\' := by
        intro hc
        cases r with
        | nil => exact hend hc rfl
        | cons d r => exact hescape d r hc rfl
      rw [unescape?_plain hquote hbackslash] at h
      obtain ⟨⟨name', rest'⟩, hr, heq⟩ := Option.map_eq_some_iff.mp h
      cases heq
      rw [List.cons_append, unescape?_plain hquote hbackslash, ih hr]
      rfl

theorem read?_append {s name rest : List Char} (h : read? s = some (name, rest))
    (more : List Char) : read? (s ++ more) = some (name, rest ++ more) := by
  unfold read? at h
  split at h
  · exact unescape?_append h more
  · cases h

/-- The text writes the name: it is read as the name whatever follows it, and a part of it that
    breaks off is not read as anything. -/
structure Writes (text name : String) : Prop where
  read : ∀ rest : String, read? (text ++ rest).toList = some (name.toList, rest.toList)
  whole : ∀ part, part <+: text.toList → part ≠ text.toList → read? part = none

theorem Writes.unique {text name name' : String} (h : Writes text name)
    (h' : Writes text name') : name = name' := by
  have hread := h.read ""
  rw [h'.read "", Option.some.injEq, Prod.mk.injEq] at hread
  exact String.toList_inj.mp hread.1.symm

/-- A reader that stopped inside would stop there before the rest as well, and leave some of it. -/
theorem writes_quote (name : String) : Writes (quote name) name where
  read := by
    intro rest
    rw [String.toList_append]
    exact read?_quote_append name rest.toList
  whole := by
    rintro part ⟨missing, hpart⟩ hne
    cases hread : read? part with
    | none => rfl
    | some x =>
        obtain ⟨taken, left⟩ := x
        have hfull := read?_append hread missing
        have hquote := read?_quote_append name []
        rw [List.append_nil, ← hpart, hfull, Option.some.injEq, Prod.mk.injEq] at hquote
        obtain ⟨-, hmissing⟩ := List.append_eq_nil_iff.mp hquote.2
        rw [hmissing, List.append_nil] at hpart
        exact absurd hpart hne

/-! ### Plain names -/

/-- A name that is written between quotes: no quote and no dot in it, and not the wildcard. -/
def IsPlain (name : String) : Prop :=
  '"' ∉ name.toList ∧ '.' ∉ name.toList ∧ name ≠ "*"

instance (name : String) : Decidable (IsPlain name) :=
  inferInstanceAs (Decidable (_ ∧ _ ∧ _))

theorem text_of_isPlain {name : String} (h : IsPlain name) : text name = quote name := by
  obtain ⟨hquote, hdot, hstar⟩ := h
  have hverbatim : isVerbatim name = false := by
    simp [isVerbatim, hquote, hdot, hstar]
  unfold text
  rw [hverbatim]
  rfl

end SeriesQuery.Identifier
