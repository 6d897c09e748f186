/-
Statement files in TOML.

A file is read line by line.  A line says on its own what it is, so a file is read as its lines are,
and only then do headers say where the assignments behind them go.  In a file of statements each
statement has a header in double brackets and its members behind it; the tables that come of them
stand in one list, in order.
-/
import SeriesQuery.CommandLine.Load
import SeriesQuery.Proofs.Toml.Values

namespace SeriesQuery.Toml

open Text Text.Reader

/-! ### Lines -/

/-- The text writes the line, its break included. -/
inductive WritesLine : Line → List Char → Prop
  | blank {blanks : List Char} (hblanks : Blanks blanks) : WritesLine .blank (blanks ++ ['\n'])
  | element {key : String} {before inner inner' behind : List Char} (hkey : IsBare key)
      (hbefore : Blanks before) (hinner : Blanks inner) (hinner' : Blanks inner')
      (hbehind : Blanks behind) : WritesLine (.header ⟨[], key, true⟩)
        (before ++ '[' :: '[' ::
          (inner ++ key.toList ++ inner' ++ ']' :: ']' :: (behind ++ ['\n'])))
  | assignment {key : String} {d : Document} {before afterKey padded : List Char}
      (hkey : IsBare key) (hbefore : Blanks before) (hafterKey : Blanks afterKey)
      (h : Padded (Writes maxDepth) d padded) : WritesLine (.assignment ⟨[], key, d⟩)
        (before ++ key.toList ++ afterKey ++ '=' :: padded ++ ['\n'])

/-- A member on a line of its own. -/
theorem WritesLine.member {key : String} {d : Document} {value : List Char} (hkey : IsBare key)
    (h : Writes maxDepth d value) :
    WritesLine (.assignment ⟨[], key, d⟩) (memberText key value ++ ['\n']) := by
  obtain ⟨before, afterKey, padded, hkey, hbefore, hafterKey, hpadded, htext⟩ :=
    member_memberText hkey h
  rw [htext]
  exact .assignment hkey hbefore hafterKey hpadded

theorem lineEnd_append {blanks : List Char} (hblanks : Blanks blanks) (rest : List Char) :
    lineEnd (blanks ++ '\n' :: rest) = some ((), rest) := by
  unfold lineEnd
  rw [bind_of_eq_some (spaces_append hblanks (endsRun_cons (by decide) rest))]
  rfl

/-- What a line says stands between blanks and the break. -/
theorem line_of_statement {l : Line} {before s behind : List Char} {rest : List Char}
    (hbefore : Blanks before) (hs : EndsRun isSpace s)
    (h : statement s = some (l, behind ++ '\n' :: rest)) (hbehind : Blanks behind) :
    line (before ++ s) = some (l, rest) := by
  unfold line
  rw [bind_of_eq_some (spaces_append hbefore hs), bind_of_eq_some h,
    bind_of_eq_some (lineEnd_append hbehind rest)]
  rfl

theorem line_blank {blanks : List Char} (hblanks : Blanks blanks) (rest : List Char) :
    line (blanks ++ '\n' :: rest) = some (.blank, rest) := by
  refine @line_of_statement _ _ _ [] _ hblanks (endsRun_cons (by decide) rest) ?_ blanks_nil
  have hkey : key ('\n' :: rest) = none := by
    unfold key
    exact (bind_of_eq_some (separated_of_eq_none rfl)).trans rfl
  have hassignment : Toml.assignment (value maxDepth) ('\n' :: rest) = none :=
    bind_of_eq_none hkey
  show statement ('\n' :: rest) = _
  unfold statement
  rw [orElse_of_eq_none rfl, orElse_of_eq_none rfl,
    orElse_of_eq_none (bind_of_eq_none hassignment)]
  rfl

section Statements

variable {key : String} {before inner inner' behind rest : List Char}

theorem line_element (hkey : IsBare key) (hbefore : Blanks before) (hinner : Blanks inner)
    (hinner' : Blanks inner') (hbehind : Blanks behind) :
    line (before ++ '[' :: '[' ::
      (inner ++ key.toList ++ inner' ++ ']' :: ']' :: (behind ++ '\n' :: rest))) =
        some (.header ⟨[], key, true⟩, rest) := by
  have hheader : elementHeader ('[' :: '[' :: (inner ++ key.toList ++ inner' ++
      ']' :: ']' :: (behind ++ '\n' :: rest))) =
        some (.header ⟨[], key, true⟩, behind ++ '\n' :: rest) := by
    have hopen (s : List Char) : Reader.word ['[', '['] ('[' :: '[' :: s) = some ((), s) := rfl
    refine (bind_of_eq_some (hopen _)).trans ?_
    exact (bind_of_eq_some (key_append hkey hinner hinner' (by decide) _)).trans rfl
  exact line_of_statement hbefore (endsRun_cons (by decide) _) (orElse_of_eq_some hheader) hbehind

/-- A key opens no header. -/
theorem IsBare.header_eq_none (h : IsBare key) (s : List Char) :
    elementHeader (key.toList ++ s) = none ∧ tableHeader (key.toList ++ s) = none := by
  obtain ⟨c, r, hcons, hc⟩ := h.exists_first
  have hne : c ≠ '[' := by
    rintro rfl
    cases hc
  rw [hcons]
  exact ⟨bind_of_eq_none (word_cons_eq_none hne _ _), bind_of_eq_none (if_neg hne)⟩

theorem line_assignment {d : Document} {afterKey padded : List Char} (hkey : IsBare key)
    (hbefore : Blanks before) (hafterKey : Blanks afterKey)
    (h : Padded (Writes maxDepth) d padded) :
    line (before ++ (key.toList ++ (afterKey ++ '=' :: (padded ++ '\n' :: rest)))) =
      some (.assignment ⟨[], key, d⟩, rest) := by
  obtain ⟨before', inner, behind, hbefore', h, hbehind, rfl⟩ := h
  have hends : EndsValue (behind ++ '\n' :: rest) :=
    endsValue_blanks hbehind (by decide : isDelimiter '\n' = true) rfl rest
  have hread := @assignment_append maxDepth (value maxDepth) Writes.value_append _ hkey [] _ _
    _ _ blanks_nil hafterKey hbefore' h _ hends
  rw [List.nil_append, List.append_assoc] at hread
  rw [List.append_assoc, List.append_assoc]
  refine line_of_statement hbefore (hkey.endsRun _) ?_ hbehind
  obtain ⟨helement, htable⟩ := hkey.header_eq_none
    (afterKey ++ '=' :: (before' ++ (inner ++ (behind ++ '\n' :: rest))))
  unfold statement
  rw [orElse_of_eq_none helement, orElse_of_eq_none htable]
  exact orElse_of_eq_some ((bind_of_eq_some hread).trans rfl)

end Statements

/-- **A line is read as what it says.** -/
theorem WritesLine.line_append {l : Line} {text : List Char} (h : WritesLine l text)
    (rest : List Char) : line (text ++ rest) = some (l, rest) := by
  cases h with
  | blank hblanks =>
      rw [List.append_assoc]
      exact line_blank hblanks rest
  | element hkey hbefore hinner hinner' hbehind =>
      simpa only [List.append_assoc, List.cons_append, List.nil_append] using
        line_element hkey hbefore hinner hinner' hbehind
  | assignment hkey hbefore hafterKey h =>
      simpa only [List.append_assoc, List.cons_append, List.nil_append] using
        line_assignment hkey hbefore hafterKey h

/-! ### Files -/

/-- The text writes the lines, one after the other. -/
inductive WritesLines : List Line → List Char → Prop
  | nil : WritesLines [] []
  | cons {l : Line} {ls : List Line} {text more : List Char} (h : WritesLine l text)
      (hs : WritesLines ls more) : WritesLines (l :: ls) (text ++ more)

theorem WritesLines.single {l : Line} {text : List Char} (h : WritesLine l text) :
    WritesLines [l] text := by
  have := cons h nil
  rwa [List.append_nil] at this

/-- A line has a first character, and it is no mark that says how bytes are ordered. -/
theorem WritesLine.exists_first {l : Line} {text : List Char} (h : WritesLine l text) :
    ∃ c r, text = c :: r ∧ c ≠ byteOrderMark := by
  have hblanks {blanks : List Char} (hb : Blanks blanks) {c : Char} (hc : c ≠ byteOrderMark)
      (r : List Char) : ∃ c' r', blanks ++ c :: r = c' :: r' ∧ c' ≠ byteOrderMark := by
    cases blanks with
    | nil => exact ⟨c, r, rfl, hc⟩
    | cons d blanks =>
        refine ⟨d, _, rfl, ?_⟩
        rintro rfl
        exact absurd (hb _ List.mem_cons_self) (by decide)
  cases h with
  | blank hb => exact hblanks hb (by decide) []
  | element _ hbefore _ _ _ => exact hblanks hbefore (by decide) _
  | assignment hkey hbefore _ _ =>
      obtain ⟨c, r, hcons, hc⟩ := hkey.exists_first
      simp only [List.append_assoc, hcons, List.cons_append]
      refine hblanks hbefore ?_ _
      rintro rfl
      exact absurd hc (by decide)

theorem WritesLines.repeated_line {ls : List Line} {text : List Char} (h : WritesLines ls text) :
    repeated line text = some (ls, []) := by
  induction h with
  | nil =>
      rw [repeated]
      rfl
  | @cons l ls text more h hs ih =>
      have hlt : more.length < (text ++ more).length := by
        obtain ⟨c, r, rfl, -⟩ := h.exists_first
        rw [List.length_append, List.length_cons]
        omega
      rw [repeated_of_eq_some (h.line_append more) hlt, ih]
      rfl

theorem WritesLines.char_byteOrderMark {ls : List Line} {text : List Char}
    (h : WritesLines ls text) : Reader.char byteOrderMark text = none := by
  cases h with
  | nil => rfl
  | cons h _ =>
      obtain ⟨c, r, rfl, hc⟩ := h.exists_first
      exact if_neg hc

/-- **A file is read as its lines are.** -/
theorem WritesLines.document? {ls : List Line} {text : String} (h : WritesLines ls text.toList) :
    document? text = ofLines? ls := by
  have hwhole : whole (do
      let _ ← Reader.optional (Reader.char byteOrderMark)
      repeated line : Reader (List Line)) text.toList = some ls :=
    whole_eq_some_iff.mpr ((bind_of_eq_some (optional_of_eq_none h.char_byteOrderMark)).trans
      h.repeated_line)
  exact congrArg (· >>= ofLines?) hwhole

/-! ### Files of statements -/

/-- The header of a statement. -/
def statementHeader : Header :=
  ⟨[], "statement", true⟩

/-- The assignment of a member. -/
def assignmentOf (m : String × Document) : Assignment :=
  ⟨[], m.1, m.2⟩

/-- The lines of statements: for each a header, and an assignment for each of its members. -/
def linesOf (statements : List (List (String × Document))) : List Line :=
  statements.flatMap fun members =>
    .header statementHeader :: members.map fun m => .assignment (assignmentOf m)

theorem sections_linesOf (statements : List (List (String × Document))) :
    sections (linesOf statements) =
      ([], statements.map fun members => ⟨statementHeader, members.map assignmentOf⟩) := by
  have hbehind (members : List (String × Document)) {ls : List Line} {rest : List Section}
      (hls : sections ls = ([], rest)) :
      sections ((members.map fun m => .assignment (assignmentOf m)) ++ ls) =
        (members.map assignmentOf, rest) := by
    induction members with
    | nil => exact hls
    | cons m members ih =>
        rw [List.map_cons, List.cons_append, sections, ih]
        rfl
  induction statements with
  | nil => rfl
  | cons members statements ih =>
      show sections (.header statementHeader ::
        ((members.map fun m => .assignment (assignmentOf m)) ++ linesOf statements)) = _
      rw [sections, hbehind members ih]
      rfl

/-- Empty lines say nothing. -/
theorem sections_filter (ls : List Line) :
    sections (ls.filter fun l => !(l matches .blank)) = sections ls := by
  induction ls with
  | nil => rfl
  | cons l ls ih =>
      cases l with
      | blank => exact ih
      | header h => exact congrArg (fun x => ([], (⟨h, x.1⟩ : Section) :: x.2)) ih
      | assignment a => exact congrArg (fun x => (a :: x.1, x.2)) ih

/-- The entries of a statement's table. -/
def entriesOf (members : List (String × Document)) : Entries :=
  members.map fun m => (m.1, .value m.2)

/-- A statement is added behind those before it. -/
theorem addTo_statement {members : List (String × Document)}
    (hkeys : (members.map Prod.fst).Nodup) (before : List Entries) :
    Section.addTo [("statement", .tables before)] ⟨statementHeader, members.map assignmentOf⟩ =
      some [("statement", .tables (before ++ [entriesOf members]))] := by
  have hassign : assignAll (members.map assignmentOf) [] = some (entriesOf members) :=
    @assignAll_append members [] hkeys
  show Entries.alter "statement" (Entries.pushTable (assignAll (members.map assignmentOf)))
    [("statement", .tables before)] = _
  unfold Entries.alter
  rw [if_pos rfl]
  unfold Entries.pushTable
  rw [hassign]
  rfl

theorem addTo_first_statement {members : List (String × Document)}
    (hkeys : (members.map Prod.fst).Nodup) :
    Section.addTo [] ⟨statementHeader, members.map assignmentOf⟩ =
      some [("statement", .tables [entriesOf members])] := by
  have hassign : assignAll (members.map assignmentOf) [] = some (entriesOf members) :=
    @assignAll_append members [] hkeys
  show Entries.alter "statement" (Entries.pushTable (assignAll (members.map assignmentOf))) [] = _
  unfold Entries.alter Entries.pushTable
  rw [hassign]
  rfl

theorem foldlM_addTo {statements : List (List (String × Document))}
    (hkeys : ∀ members ∈ statements, (members.map Prod.fst).Nodup) (before : List Entries) :
    (statements.map fun members => ⟨statementHeader, members.map assignmentOf⟩).foldlM
        Section.addTo [("statement", .tables before)] =
      some [("statement", .tables (before ++ statements.map entriesOf))] := by
  induction statements generalizing before with
  | nil =>
      rw [List.map_nil, List.map_nil, List.append_nil]
      rfl
  | cons members statements ih =>
      have hrest := ih (fun ms hms => hkeys ms (List.mem_cons_of_mem members hms))
        (before ++ [entriesOf members])
      rw [List.append_assoc] at hrest
      rw [List.map_cons, List.foldlM_cons, addTo_statement (hkeys members List.mem_cons_self)]
      exact hrest

theorem tablesOf_entriesOf (statements : List (List (String × Document))) :
    tablesOf (statements.map entriesOf) = statements.map .table := by
  induction statements with
  | nil => rfl
  | cons members statements ih =>
      rw [List.map_cons, tablesOf, ih, entriesOf, membersOf_values]
      rfl

/-- The statements of a file stand in one list, in order. -/
theorem ofLines?_linesOf {members : List (String × Document)}
    {statements : List (List (String × Document))}
    (hkeys : ∀ ms ∈ members :: statements, (ms.map Prod.fst).Nodup) :
    ofLines? (linesOf (members :: statements)) =
      some (.table [("statement", .list ((members :: statements).map .table))]) := by
  have hfold : ((members :: statements).map fun ms =>
      (⟨statementHeader, ms.map assignmentOf⟩ : Section)).foldlM Section.addTo [] =
        some [("statement", .tables ((members :: statements).map entriesOf))] := by
    rw [List.map_cons, List.foldlM_cons, addTo_first_statement (hkeys members List.mem_cons_self)]
    exact foldlM_addTo (fun ms hms => hkeys ms (List.mem_cons_of_mem members hms)) _
  unfold ofLines?
  rw [sections_linesOf]
  show (List.foldlM Section.addTo [] _ >>= fun root => some (Document.table (membersOf root))) = _
  rw [hfold]
  show some (Document.table [("statement", .list (tablesOf _))]) = _
  rw [tablesOf_entriesOf]

/-- The text is a file of statements with these members, in which no statement has a key twice.
    Empty lines may stand anywhere. -/
structure WritesStatements (statements : List (List (String × Document))) (text : String) :
    Prop where
  written : ∃ ls, WritesLines ls text.toList ∧
    (ls.filter fun l => !(l matches .blank)) = linesOf statements
  nodup : ∀ members ∈ statements, (members.map Prod.fst).Nodup

/-- **A file of statements gives the batch of their drafts**, or it is refused because one of them
    gives none. -/
theorem ofToml_of_writesStatements {statements : List (List (String × Document))} {text : String}
    (htext : WritesStatements statements text) :
    Batch.ofToml text =
      match statements.mapM fun members => StatementDraft.ofDocument? (.table members) with
      | some drafts => .ok ⟨drafts⟩
      | none => .error .malformed := by
  obtain ⟨ls, hls, hstatements⟩ := htext.written
  have hlines : Toml.document? text = ofLines? (linesOf statements) := by
    rw [hls.document?, ← hstatements]
    unfold ofLines?
    rw [sections_filter]
  unfold Batch.ofToml describe
  rw [hlines]
  cases statements with
  | nil => rfl
  | cons members statements =>
      have hbatch : Batch.ofDocument? (.table [("statement",
          .list ((members :: statements).map .table))]) =
            ((members :: statements).mapM fun ms => StatementDraft.ofDocument? (.table ms)) >>=
              fun drafts => some (Batch.mk drafts) := by
        have hmap : ((members :: statements).map Document.table).mapM StatementDraft.ofDocument? =
            (members :: statements).mapM fun ms => StatementDraft.ofDocument? (.table ms) :=
          List.mapM_map
        rw [← hmap]
        rfl
      rw [ofLines?_linesOf htext.nodup, Option.bind_eq_bind, Option.bind_some, hbatch]
      cases (members :: statements).mapM fun ms => StatementDraft.ofDocument? (.table ms) <;> rfl

end SeriesQuery.Toml
