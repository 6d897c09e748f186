/-
The characters of a statement, phrase by phrase.

Behind the first phrase every phrase stands behind a space, so a list of phrases contributes
its characters whatever stands around it, and a clause that has nothing to say contributes
none.  This turns the text of a statement into one concatenation of its parts.
-/
import SeriesQuery.Statement.Select

namespace SeriesQuery

/-- The first thing of a list and the others, unless the list is empty. -/
def uncons? {α : Type} : List α → Option (α × List α)
  | [] => none
  | a :: as => some (a, as)

theorem uncons?_injective {α : Type} : Function.Injective (uncons? (α := α)) := by
  intro as bs h
  cases as <;> cases bs <;> cases h <;> rfl

/-- A list of texts with a separator between each two: the first, then each other behind the
    separator. -/
theorem toList_intercalate_cons (separator first : String) (rest : List String) :
    (separator.intercalate (first :: rest)).toList =
      first.toList ++ rest.flatMap fun t => separator.toList ++ t.toList := by
  induction rest generalizing first with
  | nil => simp
  | cons second rest ih =>
      rw [String.intercalate_cons_cons, String.toList_append, String.toList_append, ih,
        List.flatMap_cons, List.append_assoc, List.append_assoc]

namespace Phrases

/-- The characters of the phrases, each phrase behind a space. -/
def spaced (phrases : Phrases) : List Char :=
  phrases.flatMap fun p => " ".toList ++ p.toList

theorem toList_text_cons (phrase : String) (phrases : Phrases) :
    (text (phrase :: phrases)).toList = phrase.toList ++ spaced phrases :=
  toList_intercalate_cons " " phrase phrases

@[simp] theorem spaced_append (ps qs : Phrases) : spaced (ps ++ qs) = spaced ps ++ spaced qs :=
  List.flatMap_append

@[simp] theorem spaced_singleton (p : String) : spaced [p] = " ".toList ++ p.toList :=
  List.append_nil _

theorem spaced_bare {t : String} (h : t ≠ "") : spaced (bare t) = " ".toList ++ t.toList := by
  have hempty : t.isEmpty = false := by simpa using h
  unfold bare
  rw [hempty]
  exact spaced_singleton t

/-- What a keyword looks like in front of its text. -/
def opening (keyword : String) : List Char :=
  " ".toList ++ (keyword.toList ++ " ".toList)

private theorem spaced_keyword (keyword t : String) :
    spaced [keyword ++ " " ++ t] = opening keyword ++ t.toList := by
  rw [spaced_singleton]
  simp only [opening, String.toList_append, List.append_assoc]

theorem spaced_clause (keyword t : String) :
    spaced (clause keyword (some t)) = opening keyword ++ t.toList :=
  spaced_keyword keyword t

theorem spaced_numberClause (keyword : String) (n : Option Nat) :
    spaced (numberClause keyword n) =
      n.elim [] fun n => opening keyword ++ (toString n).toList := by
  cases n with
  | none => rfl
  | some n => exact spaced_keyword keyword (toString n)

/-- The things of a list, as `write` writes each. -/
theorem spaced_listClause_map {α : Type} (keyword separator : String) (write : α → String)
    (as : List α) :
    spaced (listClause keyword separator (as.map write)) =
      (uncons? as).elim [] fun x => opening keyword ++
        ((write x.1).toList ++ x.2.flatMap fun a => separator.toList ++ (write a).toList) := by
  cases as with
  | nil => rfl
  | cons a as =>
      show spaced [keyword ++ " " ++ separator.intercalate (write a :: as.map write)] = _
      rw [spaced_keyword, toList_intercalate_cons, List.flatMap_map]
      rfl

end Phrases

namespace Select

open Phrases

/-- The whole statement, as long as something is selected. -/
theorem Clauses.toList_text {c : Clauses} (h : c.selection ≠ "") :
    c.text.toList =
      "SELECT ".toList ++ c.selection.toList ++
        (opening "FROM" ++ (qualifiedName c.retentionPolicy c.measurement).toList) ++
        (spaced (listClause "WHERE" " " c.conditions) ++
          (spaced (listClause "GROUP BY" ", " c.groupBy) ++
            (spaced (listClause "ORDER BY" ", " c.orderBy) ++
              (spaced (numberClause "LIMIT" c.limit) ++
                (spaced (numberClause "OFFSET" c.offset) ++
                  (spaced (numberClause "SLIMIT" c.seriesLimit) ++
                    (spaced (numberClause "SOFFSET" c.seriesOffset) ++
                      c.fill.elim [] fun f => " fill(".toList ++ (f.toList ++ [')'])))))))) := by
  have hfill : spaced (c.fill.toList.map fun f => "fill(" ++ f ++ ")") =
      c.fill.elim [] fun f => " fill(".toList ++ (f.toList ++ [')']) := by
    cases c.fill with
    | none => rfl
    | some f =>
        show spaced ["fill(" ++ f ++ ")"] = _
        rw [spaced_singleton]
        simp
  unfold Clauses.text Clauses.phrases
  rw [toList_text_cons]
  simp only [spaced_append, spaced_bare h, spaced_clause, hfill, List.append_assoc]
  simp

end Select
end SeriesQuery
