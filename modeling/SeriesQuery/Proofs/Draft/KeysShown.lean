/-
Showing the keys of a measurement.

SHOW TAG KEYS and SHOW FIELD KEYS are about the same drafts.  Building one takes a database from
the settings wherever the draft names none, but a policy only where there is a measurement to
qualify.  So a policy that has nothing to qualify can only come from the draft itself: whether the
statement fails does not depend on the settings, nor on which of the two it is.  Where it does not
fail, the policy is part of the source, and without a measurement there is no source.
-/
import SeriesQuery.Draft.Statement
import SeriesQuery.Proofs.Statement.Parts

namespace SeriesQuery

/-! ### The text -/

/-- A keyword and a text, behind a space; nothing without a text. -/
def Phrases.textSection (keyword : String) : Option String → String
  | some t => " " ++ keyword ++ " " ++ t
  | none => ""

theorem Phrases.trailing_textClause (keyword : String) (t : Option String) :
    trailing (clause keyword t) = textSection keyword t := by
  cases t with
  | none => rfl
  | some t => exact trailing_clause keyword t

/-- What is shown, the database and the source, each with text of its own. -/
theorem showText_eq {what : String} (h : what ≠ "") (database source : Option String) :
    showText what database source =
      "SHOW " ++ what ++ Phrases.textSection "ON" database ++
        Phrases.textSection "FROM" source := by
  have hwhat : Phrases.text ("SHOW" :: Phrases.bare what) = "SHOW " ++ what := by
    apply String.toList_inj.mp
    rw [Phrases.toList_text_cons, Phrases.spaced_bare h]
    simp
  unfold showText
  rw [Phrases.text_append, Phrases.text_append, hwhat, Phrases.trailing_textClause,
    Phrases.trailing_textClause]

theorem KeyKind.keywords_ne_empty (kind : KeyKind) : kind.keywords ≠ "" := by
  cases kind <;> decide

namespace KeysDraft

/-- The draft names a retention policy and no measurement for it to qualify. -/
def QualifiesNothing (s : KeysDraft) : Prop :=
  s.retentionPolicy.isSome ∧ s.measurement = none

/-- The database as the statement names it. -/
def databaseText (s : KeysDraft) (settings : Settings) : Option String :=
  (s.database <|> settings.database).map Identifier.text

/-- The measurement as the statement names it: behind its policy and a dot, if there is a policy. -/
def sourceText (s : KeysDraft) (settings : Settings) : Option String :=
  s.measurement.map fun measurement =>
    qualifiedName ((s.retentionPolicy <|> settings.retentionPolicy).map Identifier.text)
      (Identifier.text measurement)

end KeysDraft

namespace StatementDraft

theorem compile_showKeys_of_qualifiesNothing {s : KeysDraft} (h : s.QualifiesNothing)
    (kind : KeyKind) (settings : Settings) :
    (showKeys kind s).compile settings = .error .retentionPolicyWithoutMeasurement := by
  obtain ⟨database, measurement, policy⟩ := s
  obtain ⟨hpolicy, rfl⟩ := h
  obtain ⟨policy, rfl⟩ := Option.isSome_iff_exists.mp hpolicy
  show Fragment.compileKeys kind (KeysDraft.build _ settings) = _
  unfold KeysDraft.build Fragment.compileKeys
  rw [Fragment.compileOption_name, Fragment.compileOption_name, Fragment.compileOption_name]
  rfl

/-- The settings' policy qualifies a measurement, and is left out where there is none. -/
theorem compile_showKeys_of_not_qualifiesNothing {s : KeysDraft} (h : ¬ s.QualifiesNothing)
    (kind : KeyKind) (settings : Settings) :
    (showKeys kind s).compile settings =
      .ok (showText kind.keywords (s.databaseText settings) (s.sourceText settings)) := by
  obtain ⟨database, measurement, policy⟩ := s
  cases measurement with
  | some measurement =>
      have hpolicy : KeysDraft.effectivePolicy ⟨database, some measurement, policy⟩ settings =
          (policy <|> settings.retentionPolicy) := by
        cases policy <;> rfl
      show (Statement.showKeys kind (KeysDraft.build _ settings)).compile = _
      unfold KeysDraft.build
      rw [hpolicy]
      exact KeysScope.compile_names kind _ _ measurement
  | none =>
      have hnone : policy = none := Option.not_isSome_iff_eq_none.mp fun hp => h ⟨hp, rfl⟩
      subst hnone
      show Fragment.compileKeys kind (KeysDraft.build _ settings) = _
      unfold KeysDraft.build Fragment.compileKeys
      rw [Fragment.compileOption_name, Fragment.compileOption_name, Fragment.compileOption_name]
      rfl

/--
**Tag keys and field keys are shown alike.**  SHOW TAG KEYS and SHOW FIELD KEYS of a draft fail
exactly when the draft itself names a retention policy and no measurement, whatever the settings,
and then for that reason.  Otherwise they are the two keywords in front of the same text.  In it
a policy stands nowhere but in front of the measurement, with one dot between them; without a
measurement the policy of the settings makes no difference.
-/
theorem keys_shown_alike (s : KeysDraft) (settings : Settings) :
    (∀ kind e, (showKeys kind s).compile settings = .error e ↔
      s.QualifiesNothing ∧ e = .retentionPolicyWithoutMeasurement) ∧
    (¬ s.QualifiesNothing → ∀ kind,
      (showKeys kind s).compile settings =
        .ok ("SHOW " ++ kind.keywords ++ Phrases.textSection "ON" (s.databaseText settings) ++
          Phrases.textSection "FROM" (s.sourceText settings))) ∧
    (s.measurement = none → ∀ kind (policy : Option String),
      (showKeys kind s).compile { settings with retentionPolicy := policy } =
        (showKeys kind s).compile settings) := by
  refine ⟨?_, ?_, ?_⟩
  · intro kind e
    by_cases h : s.QualifiesNothing
    · rw [compile_showKeys_of_qualifiesNothing h, Except.error.injEq, eq_comm]
      exact (and_iff_right h).symm
    · rw [compile_showKeys_of_not_qualifiesNothing h]
      constructor
      · intro he
        cases he
      · intro he
        exact absurd he.1 h
  · intro h kind
    rw [compile_showKeys_of_not_qualifiesNothing h, showText_eq kind.keywords_ne_empty]
  · intro hnone kind policy
    by_cases h : s.QualifiesNothing
    · rw [compile_showKeys_of_qualifiesNothing h, compile_showKeys_of_qualifiesNothing h]
    · rw [compile_showKeys_of_not_qualifiesNothing h, compile_showKeys_of_not_qualifiesNothing h]
      unfold KeysDraft.sourceText
      rw [hnone]
      rfl

/-- A policy of the settings beside a measurement and without one. -/
theorem keys_shown_alike_under_policy :
    let settings : Settings := ⟨some "telegraf", some "week", .text⟩
    let named : KeysDraft := ⟨none, some "cpu load", none⟩
    let unnamed : KeysDraft := ⟨none, none, none⟩
    ¬ named.QualifiesNothing ∧ ¬ unnamed.QualifiesNothing ∧ unnamed.measurement = none ∧
    (showKeys .tag named).compile settings =
      .ok "SHOW TAG KEYS ON \"telegraf\" FROM \"week\".\"cpu load\"" ∧
    (showKeys .field unnamed).compile settings = .ok "SHOW FIELD KEYS ON \"telegraf\"" ∧
    (showKeys .field unnamed).compile { settings with retentionPolicy := none } =
      (showKeys .field unnamed).compile settings := by
  intro settings named unnamed
  have hnamed : ¬ named.QualifiesNothing := fun h => nomatch h.1
  have hunnamed : ¬ unnamed.QualifiesNothing := fun h => nomatch h.1
  obtain ⟨-, htag, -⟩ := keys_shown_alike named settings
  obtain ⟨-, hfield, hpolicy⟩ := keys_shown_alike unnamed settings
  refine ⟨hnamed, hunnamed, rfl, ?_, ?_, hpolicy rfl .field none⟩
  · rw [htag hnamed]
    decide
  · rw [hfield hunnamed]
    decide

end StatementDraft

end SeriesQuery
