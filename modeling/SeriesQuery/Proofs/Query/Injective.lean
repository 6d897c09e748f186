/-
The statement shows the query.

A statement of the quoted fragment is the selection, the source, and then up to eight optional
sections, each behind a keyword of its own.  Each part shows where it ends: a name at its closing
quote, a number where the digits end, a literal at its closing quote or before the next space, a
list where no separator follows.  What follows a part is a separator, the keyword of one of the
sections behind it, or the end, and nothing a name contains can look like any of these from
outside its quotes.  So the text can be taken apart in one way only.
-/
import SeriesQuery.Proofs.Query.Basic
import SeriesQuery.Proofs.Statement.Phrases

namespace SeriesQuery

open Text Phrases

/-! ### Conditions -/

theorem selfDelimiting_operator :
    SelfDelimiting (fun o : Operator => o.symbol.toList) (EndsRun (· != ' ')) :=
  SelfDelimiting.word (by intro o; cases o <;> rfl) Operator.symbol_injective

theorem Conjunction.keyword_injective : Function.Injective keyword := by
  intro k k' h
  cases k <;> cases k' <;> first | rfl | exact absurd h (by decide)

theorem selfDelimiting_conjunction :
    SelfDelimiting (fun k : Conjunction => k.keyword.toList) (EndsRun (· != ' ')) :=
  SelfDelimiting.word (by intro k; cases k <;> rfl) Conjunction.keyword_injective

/-- A space ends a word. -/
private theorem endsRun_space (x : List Char) : EndsRun (· != ' ') (" ".toList ++ x) :=
  endsRun_cons (by decide) x

theorem selfDelimiting_comparison :
    SelfDelimiting (fun c : Comparison => c.text.toList) (EndsRun (· != ' ')) := by
  have hoperator := (selfDelimiting_operator.behind " ".toList).seq
    (selfDelimiting_literal.behind " ".toList) (fun v r _ => by
      rw [List.append_assoc]
      exact endsRun_space _)
  have hparts := (Identifier.selfDelimiting_quote.seq hoperator fun _ _ _ => trivial).comap
    (f := fun c : Comparison => (c.name, c.operator, ⟨c.value.toList, c.isLiteral⟩)) ?_
  · intro c c' r s hr hs heq
    refine hparts hr hs ?_
    simpa [Comparison.text] using heq
  · rintro ⟨name, operator, value, _⟩ ⟨name', operator', value', _⟩ h
    simp only [Prod.mk.injEq, Subtype.mk.injEq, String.toList_inj] at h
    obtain ⟨rfl, rfl, rfl⟩ := h
    rfl

/-- A further comparison behind its conjunction. -/
def writeFurther (x : Conjunction × Comparison) : List Char :=
  opening x.1.keyword ++ x.2.text.toList

theorem selfDelimiting_further : SelfDelimiting writeFurther (EndsRun (· != ' ')) := by
  have hopening : SelfDelimiting (fun k : Conjunction => opening k.keyword) (fun _ => True) :=
    (selfDelimiting_conjunction.closed (k := " ".toList) endsRun_space).behind " ".toList
  have hparts := hopening.seq selfDelimiting_comparison fun _ _ _ => trivial
  exact hparts

/-- All the comparisons of a WHERE clause. -/
def writeComparisons (cs : Comparisons) : List Char :=
  cs.1.text.toList ++ cs.2.flatMap writeFurther

theorem selfDelimiting_comparisons :
    SelfDelimiting writeComparisons (fun r => EndsRun (· != ' ') r ∧ Stops writeFurther r) := by
  refine selfDelimiting_comparison.chain selfDelimiting_further ?_
  intro x r
  unfold writeFurther opening
  rw [List.append_assoc, List.append_assoc]
  exact endsRun_space _

/-! ### Names and terms to sort by -/

/-- Names with a comma between each two. -/
def writeNames (names : String × List String) : List Char :=
  (Identifier.quote names.1).toList ++
    names.2.flatMap fun name => ", ".toList ++ (Identifier.quote name).toList

theorem selfDelimiting_names :
    SelfDelimiting writeNames (fun r => ∀ x, r ≠ ", ".toList ++ x) := by
  have hnames := Identifier.selfDelimiting_quote.separated (k := ", ".toList) fun _ => trivial
  exact hnames.mono fun _ hr => ⟨trivial, hr⟩

/-- What is selected: names, or everything. -/
def writeSelection (fields : Option (String × List String)) : List Char :=
  fields.elim "*".toList writeNames

theorem writeSelection_ne_nil (fields : Option (String × List String)) :
    writeSelection fields ≠ [] := by
  cases fields with
  | none => exact List.cons_ne_nil _ _
  | some names =>
      show writeNames names ≠ []
      unfold writeNames
      rw [Identifier.toList_quote]
      exact List.cons_ne_nil _ _

theorem selfDelimiting_selection :
    SelfDelimiting writeSelection (fun r => ∀ x, r ≠ ", ".toList ++ x) := by
  refine selfDelimiting_names.orElse ?_
  intro names r s _ heq
  unfold writeNames at heq
  rw [Identifier.toList_quote] at heq
  exact absurd (List.cons.inj heq).1 (by decide)

/-- One name, or two with a dot between them. -/
def writeSource (source : String × Option String) : List Char :=
  (Identifier.quote source.1).toList ++
    source.2.elim [] fun name => ".".toList ++ (Identifier.quote name).toList

theorem selfDelimiting_source :
    SelfDelimiting writeSource
      (Stops fun name => ".".toList ++ (Identifier.quote name).toList) := by
  have hsecond := (Identifier.selfDelimiting_quote.behind ".".toList).optional
  have hparts := Identifier.selfDelimiting_quote.seq hsecond fun _ _ _ => trivial
  exact hparts.mono fun _ hr => ⟨trivial, hr⟩

/-- A direction to sort in. -/
def writeDirection (d : SortDirection) : List Char :=
  " ".toList ++ d.keyword.toList

theorem SortDirection.keyword_injective : Function.Injective keyword := by
  intro d d' h
  cases d <;> cases d' <;> first | rfl | exact absurd h (by decide)

theorem selfDelimiting_direction : SelfDelimiting writeDirection (EndsRun Char.isAlpha) := by
  have hkeyword := SelfDelimiting.word (p := Char.isAlpha) (by intro d; cases d <;> rfl)
    SortDirection.keyword_injective
  exact hkeyword.behind " ".toList

/-- What may follow a term to sort by. -/
def EndsTerm (r : List Char) : Prop :=
  EndsRun Char.isAlpha r ∧ Stops writeDirection r

theorem selfDelimiting_sortText :
    SelfDelimiting (fun x => (Fragment.sortText x).toList) EndsTerm := by
  have hparts := Identifier.selfDelimiting_quote.seq selfDelimiting_direction.optional
    fun _ _ _ => trivial
  intro x y r s hr hs heq
  have htext : ∀ x, (Fragment.sortText x).toList =
      (Identifier.quote x.1).toList ++ x.2.elim [] writeDirection := by
    rintro ⟨name, d⟩
    cases d <;> simp [Fragment.sortText, writeDirection]
  simp only [htext] at heq
  exact hparts hr hs heq

/-- Terms to sort by, with a comma between each two. -/
def writeTerms (terms : (String × Option SortDirection) × List (String × Option SortDirection)) :
    List Char :=
  (Fragment.sortText terms.1).toList ++
    terms.2.flatMap fun x => ", ".toList ++ (Fragment.sortText x).toList

theorem selfDelimiting_terms :
    SelfDelimiting writeTerms (fun r => EndsTerm r ∧ ∀ x, r ≠ ", ".toList ++ x) := by
  refine selfDelimiting_sortText.separated ?_
  intro x
  refine ⟨endsRun_cons (by decide) _, ?_⟩
  intro d y heq
  exact absurd (List.cons.inj heq).1 (by decide)

/-! ### The optional sections -/

/-- A number in plain digits. -/
def writeNumber (n : Nat) : List Char :=
  (toString n).toList

/-- What stands in a fill, and the closing parenthesis. -/
def writeFill (fill : String) : List Char :=
  fill.toList ++ ")".toList

theorem selfDelimiting_fill : SelfDelimiting writeFill (· = []) := by
  intro a b r s hr hs heq
  subst hr hs
  refine ⟨?_, rfl⟩
  unfold writeFill at heq
  rw [List.append_nil, List.append_nil] at heq
  exact String.toList_inj.mp (List.append_cancel_right heq)

/-- The optional sections of a query, in order. -/
abbrev Sections :=
  Option Comparisons × Option (String × List String) ×
    Option ((String × Option SortDirection) × List (String × Option SortDirection)) ×
    Option Nat × Option Nat × Option Nat × Option Nat × Option String × Unit

/-- The sections as they stand in the statement, each behind its keyword. -/
def writeSections : Sections → List Char :=
  optionally (opening "WHERE") writeComparisons <|
  optionally (opening "GROUP BY") writeNames <|
  optionally (opening "ORDER BY") writeTerms <|
  optionally (opening "LIMIT") writeNumber <|
  optionally (opening "OFFSET") writeNumber <|
  optionally (opening "SLIMIT") writeNumber <|
  optionally (opening "SOFFSET") writeNumber <|
  optionally " fill(".toList writeFill fun _ => []

/-- The keywords of the sections. -/
def sectionKeywords : List (List Char) :=
  [opening "WHERE", opening "GROUP BY", opening "ORDER BY", opening "LIMIT", opening "OFFSET",
    opening "SLIMIT", opening "SOFFSET", " fill(".toList]

private theorem closing_number {β : Type} (keyword : String) {keywords : List (List Char)}
    {writeRest : β → List Char} (hrest : Closing keywords writeRest)
    (hends : (keywords.all fun k => k.head?.any fun c => !c.isDigit) = true)
    (hk : Apart (opening keyword) keywords) :
    Closing (opening keyword :: keywords) (optionally (opening keyword) writeNumber writeRest) :=
  hrest.cons selfDelimiting_number (fun _ hr => hr.endsRun hends) hk

/-- The sections can be told apart, and so can what is in each. -/
theorem closing_sections : Closing sectionKeywords writeSections := by
  have hend : ∀ r, Opens [] r → r = [] := by
    rintro r (hnil | ⟨k, hk, -⟩)
    · exact hnil
    · cases hk
  -- From the last section to the first: each must be told from all those behind it.
  have hfill := Closing.nil.cons (k := " fill(".toList) selfDelimiting_fill hend (by decide)
  have hsoffset := closing_number "SOFFSET" hfill (by decide) (by decide)
  have hslimit := closing_number "SLIMIT" hsoffset (by decide) (by decide)
  have hoffset := closing_number "OFFSET" hslimit (by decide) (by decide)
  have hlimit := closing_number "LIMIT" hoffset (by decide) (by decide)
  have horder := hlimit.cons (k := opening "ORDER BY") selfDelimiting_terms
    (by
      intro r hr
      refine ⟨⟨hr.endsRun (by decide), ?_⟩, hr.ne_append (by decide)⟩
      rintro (_ | _) x
      · exact hr.ne_append (by decide) x
      · exact hr.ne_append (by decide) x)
    (by decide)
  have hgroup := horder.cons (k := opening "GROUP BY") selfDelimiting_names
    (fun r hr => hr.ne_append (by decide)) (by decide)
  have hwhere := hgroup.cons (k := opening "WHERE") selfDelimiting_comparisons
    (by
      intro r hr
      refine ⟨hr.endsRun (by decide), ?_⟩
      rintro ⟨k, c⟩ x
      show r ≠ opening k.keyword ++ c.text.toList ++ x
      rw [List.append_assoc]
      refine hr.ne_append ?_ _
      cases k <;> decide)
    (by decide)
  exact hwhere

/-! ### The whole statement -/

namespace Query

/-- The retention policy and the measurement in the order in which they are written. -/
def source (q : Query) : String × Option String :=
  match q.retentionPolicy with
  | none => (q.measurement, none)
  | some policy => (policy, some q.measurement)

/-- The optional sections of the query. -/
def sections (q : Query) : Sections :=
  (q.conditions, uncons? q.groupBy, uncons? q.orderBy, q.limit, q.offset, q.seriesLimit,
    q.seriesOffset, q.fill, ())

/-- Every part of a query is in its statement. -/
theorem ext_of_parts {q q' : Query} (hfields : uncons? q.fields = uncons? q'.fields)
    (hsource : q.source = q'.source) (hsections : q.sections = q'.sections) : q = q' := by
  have hnames : q.measurement = q'.measurement ∧ q.retentionPolicy = q'.retentionPolicy := by
    unfold source at hsource
    cases hp : q.retentionPolicy <;> cases hp' : q'.retentionPolicy <;>
      simp only [hp, hp', Prod.mk.injEq, Option.some.injEq, reduceCtorEq, and_true,
        and_false] at hsource
    · exact ⟨hsource, rfl⟩
    · exact ⟨hsource.2, congrArg some hsource.1⟩
  simp only [sections, Prod.mk.injEq] at hsections
  obtain ⟨hconditions, hgroup, horder, hlimit, hoffset, hslimit, hsoffset, hfill, -⟩ := hsections
  exact Query.ext (uncons?_injective hfields) hnames.1 hnames.2 hconditions
    (uncons?_injective hgroup) (uncons?_injective horder) hlimit hoffset hslimit hsoffset hfill

theorem toList_selection (q : Query) :
    q.clauses.selection.toList = writeSelection (uncons? q.fields) := by
  unfold Select.Clauses.selection clauses
  cases q.fields with
  | nil => rfl
  | cons name names =>
      show (", ".intercalate (Identifier.quote name :: names.map Identifier.quote)).toList = _
      rw [toList_intercalate_cons, List.flatMap_map]
      rfl

theorem toList_source (q : Query) :
    (qualifiedName q.clauses.retentionPolicy q.clauses.measurement).toList =
      writeSource q.source := by
  unfold clauses source qualifiedName
  cases q.retentionPolicy with
  | none => exact (List.append_nil _).symm
  | some policy =>
      simp only [Option.map_some, String.toList_append, List.append_assoc]
      rfl

/-- The conditions of the statement are the comparisons of the query. -/
theorem spaced_conditions (cs : Option Comparisons) :
    spaced (listClause "WHERE" " " (cs.elim [] Comparisons.texts)) =
      cs.elim [] fun cs => opening "WHERE" ++ writeComparisons cs := by
  cases cs with
  | none => rfl
  | some cs =>
      have hclause := spaced_listClause_map "WHERE" " " id cs.texts
      rw [List.map_id] at hclause
      show spaced (listClause "WHERE" " " cs.texts) = opening "WHERE" ++ writeComparisons cs
      rw [hclause]
      unfold Comparisons.texts writeComparisons
      simp only [uncons?, Option.elim_some, id_eq, List.flatMap_assoc]
      have hfurther : (fun x : Conjunction × Comparison =>
          [x.1.keyword, x.2.text].flatMap fun t => " ".toList ++ t.toList) = writeFurther := by
        funext x
        simp [writeFurther, opening]
      rw [hfurther]

/-- The statement is the selection, the source and the sections. -/
theorem toList_text (q : Query) :
    q.text.toList =
      "SELECT ".toList ++ writeSelection (uncons? q.fields) ++
        (opening "FROM" ++ writeSource q.source) ++ writeSections q.sections := by
  have hne : q.clauses.selection ≠ "" := by
    intro h
    have hnil := q.toList_selection
    rw [h] at hnil
    exact writeSelection_ne_nil _ hnil.symm
  unfold text
  rw [Select.Clauses.toList_text hne, toList_selection, toList_source]
  congr 1
  unfold clauses
  simp only [spaced_conditions, spaced_listClause_map, spaced_numberClause, sections,
    writeSections, optionally, List.append_nil]
  rfl

/-- The selection and the source end where the sections begin. -/
theorem selfDelimiting_head :
    SelfDelimiting
      (fun x : Option (String × List String) × (String × Option String) =>
        "SELECT ".toList ++ writeSelection x.1 ++ (opening "FROM" ++ writeSource x.2))
      (Opens sectionKeywords) := by
  have hfollow : ∀ r, Opens sectionKeywords r →
      Stops (fun name => ".".toList ++ (Identifier.quote name).toList) r := by
    intro r hr name x
    show r ≠ ".".toList ++ (Identifier.quote name).toList ++ x
    rw [List.append_assoc]
    exact hr.ne_append (by decide) _
  have hsource := (selfDelimiting_source.behind (opening "FROM")).mono hfollow
  have hnext : ∀ (source : String × Option String) (r : List Char), Opens sectionKeywords r →
      ∀ x, opening "FROM" ++ writeSource source ++ r ≠ ", ".toList ++ x := by
    intro source r _ x heq
    exact absurd (List.cons.inj heq).1 (by decide)
  have hparts := (selfDelimiting_selection.behind "SELECT ".toList).seq hsource hnext
  exact hparts

/-- **The statement shows the query.** -/
theorem text_injective : Function.Injective text := by
  intro q q' h
  have htext := congrArg String.toList h
  rw [toList_text, toList_text] at htext
  have hparts : ((uncons? q.fields, q.source), q.sections) =
      ((uncons? q'.fields, q'.source), q'.sections) :=
    closing_sections.preceded selfDelimiting_head (fun _ hr => hr) htext
  simp only [Prod.mk.injEq] at hparts
  exact ext_of_parts hparts.1.1 hparts.1.2 hparts.2

end Query

/--
**The text determines the query.**  Two SELECTs of the quoted fragment that compose to the same
text ask for the same fields, measurement, retention policy, comparisons, terms to group and to
sort by, numbers and fill.  No name makes one query read as another.
-/
theorem Select.same_query_of_same_text {s s' : Select Fragment} {t : String}
    (hs : s.query?.isSome) (hs' : s'.query?.isSome) (ht : (Statement.select s).compile = .ok t)
    (ht' : (Statement.select s').compile = .ok t) :
    ∃ q, s.query? = some q ∧ s'.query? = some q := by
  obtain ⟨q, hq⟩ := Option.isSome_iff_exists.mp hs
  obtain ⟨q', hq'⟩ := Option.isSome_iff_exists.mp hs'
  rw [Select.compile_of_query? hq] at ht
  rw [Select.compile_of_query? hq', ← ht] at ht'
  have hsame : q' = q := Query.text_injective (Except.ok.inj ht')
  subst hsame
  exact ⟨q', hq, hq'⟩

/-- The newest point of host `a` in the field `\`. -/
def Select.newestOf (condition : String) : Select Fragment :=
  (ofFields [.name "\\"]).applyAll
    [.measurement (.name "cpu"), .only ⟨condition, [.text "a"]⟩,
      .orderBy [.ordered (.name "time") .desc], .limit 1]

/-- Blanks and a missing operator make no difference, neither to the text nor to the query. -/
theorem Select.same_query_of_newestOf :
    ∃ q, (newestOf "host").query? = some q ∧ (newestOf " host  = ").query? = some q := by
  have ht : (Statement.select (newestOf "host")).compile = .ok
      "SELECT \"\\\\\" FROM \"cpu\" WHERE \"host\" = 'a' ORDER BY \"time\" DESC LIMIT 1" := by
    rfl
  have ht' : (Statement.select (newestOf " host  = ")).compile = .ok
      "SELECT \"\\\\\" FROM \"cpu\" WHERE \"host\" = 'a' ORDER BY \"time\" DESC LIMIT 1" := by
    rfl
  exact Select.same_query_of_same_text (by rfl) (by rfl) ht ht'

end SeriesQuery
