/-
A SELECT as a concatenation.

The phrases of a SELECT are collected in a list of varying length and joined with spaces.  The
text is the same as if every clause wrote its own piece of it, a space in front, and wrote
nothing where it is not set: the pieces then stand side by side in a fixed order.  What a clause
writes is decided by that clause alone, so whatever one clause is, the text in front of it and
the text behind it stay as they are.
-/
import SeriesQuery.Proofs.Statement.Parts

namespace SeriesQuery.Select

/-! ### The clauses -/

/-- The clauses that may stand behind the source of a SELECT. -/
inductive Clause where
  | conditions
  | groupBy
  | orderBy
  | limit
  | offset
  | seriesLimit
  | seriesOffset
  | fill
  deriving DecidableEq, Repr

namespace Clause

/-- The clauses in the order in which they stand. -/
def inOrder : List Clause :=
  [conditions, groupBy, orderBy, limit, offset, seriesLimit, seriesOffset, fill]

/-- The clauses in front of one. -/
def before (k : Clause) : List Clause :=
  inOrder.takeWhile (· ≠ k)

/-- The clauses behind one. -/
def after (k : Clause) : List Clause :=
  (inOrder.dropWhile (· ≠ k)).tail

theorem inOrder_eq (k : Clause) : inOrder = k.before ++ k :: k.after := by
  cases k <;> rfl

theorem not_mem_before (k : Clause) : k ∉ k.before := by
  cases k <;> decide

theorem not_mem_after (k : Clause) : k ∉ k.after := by
  cases k <;> decide

end Clause

/-! ### What each clause writes -/

/-- A fill option between its parentheses, behind a space; nothing without an option. -/
def fillSection : Option String → String
  | some f => " fill(" ++ f ++ ")"
  | none => ""

namespace Clauses

/-- What a clause writes: nothing where it is not set. -/
def written (c : Clauses) : Clause → String
  | .conditions => Phrases.listSection "WHERE" " " c.conditions
  | .groupBy => Phrases.listSection "GROUP BY" ", " c.groupBy
  | .orderBy => Phrases.listSection "ORDER BY" ", " c.orderBy
  | .limit => Phrases.numberSection "LIMIT" c.limit
  | .offset => Phrases.numberSection "OFFSET" c.offset
  | .seriesLimit => Phrases.numberSection "SLIMIT" c.seriesLimit
  | .seriesOffset => Phrases.numberSection "SOFFSET" c.seriesOffset
  | .fill => fillSection c.fill

/-- What the clauses write, one behind the other. -/
def writtenAll (c : Clauses) (ks : List Clause) : String :=
  String.join (ks.map c.written)

/-- The selection and the source. -/
def head (c : Clauses) : String :=
  "SELECT " ++ c.selection ++ " FROM " ++ c.source

theorem trailing_fill (f : Option String) :
    Phrases.trailing (f.toList.map fun f => "fill(" ++ f ++ ")") = fillSection f := by
  apply String.toList_inj.mp
  cases f with
  | none => rfl
  | some f =>
      rw [Option.toList_some, List.map_singleton, Phrases.toList_trailing, Phrases.spaced_singleton]
      simp [fillSection]

theorem further_eq (c : Clauses) : c.further = c.writtenAll Clause.inOrder.tail := by
  unfold further furtherPhrases
  simp only [Phrases.trailing_append, Phrases.trailing_listClause, Phrases.trailing_numberClause,
    trailing_fill]
  simp only [writtenAll, Clause.inOrder, List.tail_cons, List.map_cons, List.map_nil,
    String.join_cons, String.join_nil, String.append_empty, String.append_assoc, written]

theorem selection_ne_empty {c : Clauses} (h : c.fields ≠ [""]) : c.selection ≠ "" := by
  unfold selection
  match hfields : c.fields with
  | [] => decide
  | [t] =>
      intro ht
      have hempty : t = "" := by simpa using ht
      exact h (by rw [hfields, hempty])
  | t :: u :: ts => simp [String.append_assoc]

theorem selecting_eq {c : Clauses} (h : c.fields ≠ [""]) :
    c.selecting = "SELECT " ++ c.selection := by
  apply String.toList_inj.mp
  unfold selecting
  rw [Phrases.toList_text_cons, Phrases.spaced_bare (selection_ne_empty h)]
  simp

/-- The statement is its selection and its source and what the clauses write behind them. -/
theorem text_eq_written (c : Clauses) :
    c.text = c.selecting ++ (" FROM " ++ c.source) ++ c.writtenAll Clause.inOrder := by
  have hall : c.writtenAll Clause.inOrder = whereSection c.conditions ++ c.further := by
    rw [further_eq]
    exact String.join_cons
  rw [text_eq, hall, String.append_assoc]

/-- Without the hypothesis it is one field without a text that is selected, and no space stands
    where that field would be. -/
theorem text_eq_append {c : Clauses} (h : c.fields ≠ [""]) :
    c.text = c.head ++ c.writtenAll Clause.inOrder := by
  rw [text_eq_written, selecting_eq h]
  simp only [head, String.append_assoc]

/-- What the clauses write, around any one of them. -/
theorem writtenAll_inOrder (c : Clauses) (k : Clause) :
    c.writtenAll Clause.inOrder = c.writtenAll k.before ++ c.written k ++ c.writtenAll k.after := by
  unfold writtenAll
  rw [k.inOrder_eq, List.map_append, List.map_cons, String.join_append, String.join_cons,
    String.append_assoc]

end Clauses

/-! ### One clause as it is elsewhere -/

/-- The SELECT with one clause as it is in another SELECT, set or not. -/
def withClause (s t : Select Fragment) : Clause → Select Fragment
  | .conditions => { s with conditions := t.conditions }
  | .groupBy => { s with groupBy := t.groupBy }
  | .orderBy => { s with orderBy := t.orderBy }
  | .limit => { s with limit := t.limit }
  | .offset => { s with offset := t.offset }
  | .seriesLimit => { s with seriesLimit := t.seriesLimit }
  | .seriesOffset => { s with seriesOffset := t.seriesOffset }
  | .fill => { s with fill := t.fill }

namespace Clauses

/-- The texts with those of one clause as they are elsewhere. -/
def withClause (c d : Clauses) : Clause → Clauses
  | .conditions => { c with conditions := d.conditions }
  | .groupBy => { c with groupBy := d.groupBy }
  | .orderBy => { c with orderBy := d.orderBy }
  | .limit => { c with limit := d.limit }
  | .offset => { c with offset := d.offset }
  | .seriesLimit => { c with seriesLimit := d.seriesLimit }
  | .seriesOffset => { c with seriesOffset := d.seriesOffset }
  | .fill => { c with fill := d.fill }

theorem fields_withClause (c d : Clauses) (k : Clause) : (c.withClause d k).fields = c.fields := by
  cases k <;> rfl

theorem head_withClause (c d : Clauses) (k : Clause) : (c.withClause d k).head = c.head := by
  cases k <;> rfl

theorem written_withClause_self (c d : Clauses) (k : Clause) :
    (c.withClause d k).written k = d.written k := by
  cases k <;> rfl

theorem written_withClause_of_ne (c d : Clauses) {j k : Clause} (h : j ≠ k) :
    (c.withClause d k).written j = c.written j := by
  cases k <;> cases j <;> first | rfl | exact absurd rfl h

theorem writtenAll_withClause (c d : Clauses) {k : Clause} {ks : List Clause} (h : k ∉ ks) :
    (c.withClause d k).writtenAll ks = c.writtenAll ks := by
  have hwritten : ∀ j ∈ ks, (c.withClause d k).written j = c.written j := by
    intro j hj
    exact c.written_withClause_of_ne d (ne_of_mem_of_not_mem hj h)
  unfold writtenAll
  rw [List.map_congr_left hwritten]

/-- **Only the clause that changes is written differently.** -/
theorem text_withClause {c : Clauses} (h : c.fields ≠ [""]) (d : Clauses) (k : Clause) :
    (c.withClause d k).text =
      c.head ++ c.writtenAll k.before ++ d.written k ++ c.writtenAll k.after := by
  have hfields : (c.withClause d k).fields ≠ [""] := by rwa [fields_withClause]
  rw [text_eq_append hfields, head_withClause, writtenAll_inOrder _ k,
    writtenAll_withClause c d k.not_mem_before, written_withClause_self,
    writtenAll_withClause c d k.not_mem_after]
  simp only [String.append_assoc]

end Clauses

theorem CompilesTo.unique {s : Select Fragment} {c d : Clauses} (hc : s.CompilesTo c)
    (hd : s.CompilesTo d) : c = d :=
  Except.ok.inj ((clauses_eq_ok_iff.mpr hc).symm.trans (clauses_eq_ok_iff.mpr hd))

/-- Where a clause changes, the texts of all other parts stay. -/
theorem CompilesTo.eq_withClause {s t : Select Fragment} {c d : Clauses} {k : Clause}
    (hc : s.CompilesTo c) (hd : (s.withClause t k).CompilesTo d) : d = c.withClause d k := by
  have hmixed : (s.withClause t k).CompilesTo (c.withClause d k) := by
    cases k with
    | conditions => exact { hc with conditions := hd.conditions }
    | groupBy => exact { hc with groupBy := hd.groupBy }
    | orderBy => exact { hc with orderBy := hd.orderBy }
    | limit => exact { hc with limit := hd.limit }
    | offset => exact { hc with offset := hd.offset }
    | seriesLimit => exact { hc with seriesLimit := hd.seriesLimit }
    | seriesOffset => exact { hc with seriesOffset := hd.seriesOffset }
    | fill => exact { hc with fill := hd.fill }
  exact hd.unique hmixed

/-! ### The statement -/

/--
**A SELECT is its parts one behind the other, and a clause changes nothing but itself.**  Where
the parts compile, the statement is the selection and the source with what each clause writes
behind them, in a fixed order; a clause that is not set writes nothing.  With one clause as it is
in any other SELECT, set there or not, the text in front of the clause and the text behind it are
the same.  The one hypothesis on the texts is that the selection is not a single empty one.
-/
theorem select_is_concatenation {s : Select Fragment} {c : Clauses} (h : s.CompilesTo c)
    (hfields : c.fields ≠ [""]) :
    (Statement.select s).compile = .ok (c.head ++ c.writtenAll Clause.inOrder) ∧
    ∀ (k : Clause) (t : Select Fragment) (d : Clauses), (s.withClause t k).CompilesTo d →
      (Statement.select (s.withClause t k)).compile =
        .ok (c.head ++ c.writtenAll k.before ++ d.written k ++ c.writtenAll k.after) := by
  constructor
  · rw [h.compile_eq, Clauses.text_eq_append hfields]
  · intro k t d hd
    have hmixed := h.eq_withClause hd
    rw [hd.compile_eq, hmixed, Clauses.text_withClause hfields, Clauses.written_withClause_self]

/-- A limit of nothing is written, and another one, or none, stands between the same texts. -/
theorem limit_stands_between :
    let s := (ofFields [.name "v", .name "w"]).applyAll
      [.measurement (.name "cpu"), .retentionPolicy (.name "week"), .limit 0, .groupBy [.raw "*"],
        .fill .none]
    (Statement.select s).compile =
        .ok "SELECT \"v\", \"w\" FROM \"week\".\"cpu\" GROUP BY * LIMIT 0 fill(none)" ∧
      (Statement.select (s.withClause ((ofFields []).apply (.limit 10)) .limit)).compile =
        .ok "SELECT \"v\", \"w\" FROM \"week\".\"cpu\" GROUP BY * LIMIT 10 fill(none)" ∧
      (Statement.select (s.withClause (ofFields []) .limit)).compile =
        .ok "SELECT \"v\", \"w\" FROM \"week\".\"cpu\" GROUP BY * fill(none)" := by
  intro s
  let texts (limit : Option Nat) : Clauses :=
    ⟨["\"v\"", "\"w\""], "\"cpu\"", some "\"week\"", [], ["*"], [], limit, none, none, none,
      some "none"⟩
  have hs : s.CompilesTo (texts (some 0)) := clauses_eq_ok_iff.mp rfl
  have hten : (s.withClause ((ofFields []).apply (.limit 10)) .limit).CompilesTo
      (texts (some 10)) := clauses_eq_ok_iff.mp rfl
  have hnone : (s.withClause (ofFields []) .limit).CompilesTo (texts none) :=
    clauses_eq_ok_iff.mp rfl
  obtain ⟨hall, hframe⟩ := select_is_concatenation hs (by decide)
  refine ⟨hall.trans ?_, (hframe _ _ _ hten).trans ?_, (hframe _ _ _ hnone).trans ?_⟩
  · decide
  · decide
  · decide

end SeriesQuery.Select
