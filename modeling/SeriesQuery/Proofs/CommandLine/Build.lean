/-
Building a file is all or nothing.

Nothing is printed before every statement has been composed, so a run prints all statements or
none.  What can fail is loading the settings, loading the file, and composing a statement; the
statements are composed in the order of the file, each one built and then compiled before the next,
so the error of a run is that of the first statement that fails.  Either format prints the same
texts: one line each, or a JSON list, which reads back as these texts.
-/
import SeriesQuery.Proofs.Composed
import SeriesQuery.Proofs.Files
import SeriesQuery.Proofs.Json.Batches
import SeriesQuery.Proofs.Json.Printing

namespace SeriesQuery

/-! ### Statements -/

namespace StatementDraft

variable {settings : Settings} {s : StatementDraft}

/-- The statement builds and compiles to the text. -/
def Gives (settings : Settings) (s : StatementDraft) (text : String) : Prop :=
  ∃ statement, s.build settings = .ok statement ∧ statement.compile = .ok text

/-- The statement fails, in building it or in compiling it. -/
def Fails (settings : Settings) (s : StatementDraft) (e : ComposeError) : Prop :=
  s.build settings = .error e ∨
    ∃ statement, s.build settings = .ok statement ∧ statement.compile = .error e

theorem compile_eq_ok_iff {text : String} :
    s.compile settings = .ok text ↔ Gives settings s text :=
  Composed.bind_eq_ok_iff

theorem compile_eq_error_iff {e : ComposeError} :
    s.compile settings = .error e ↔ Fails settings s e := by
  unfold compile Fails
  cases s.build settings with
  | error e' =>
      rw [Composed.error_bind]
      simp
  | ok statement =>
      rw [Composed.ok_bind]
      simp

end StatementDraft

/-! ### Batches -/

namespace Batch

variable {settings : Settings} {b : Batch}

theorem compile_eq_ok_iff {texts : List String} :
    b.compile settings = .ok texts ↔
      List.Forall₂ (StatementDraft.Gives settings) b.statements texts := by
  unfold compile
  rw [Composed.mapM_eq_ok_iff]
  simp only [StatementDraft.compile_eq_ok_iff]

/-- A batch fails as its first statement that fails. -/
theorem compile_eq_error_iff {e : ComposeError} :
    b.compile settings = .error e ↔ ∃ before s after, b.statements = before ++ s :: after ∧
      (∀ x ∈ before, ∃ text, StatementDraft.Gives settings x text) ∧
      StatementDraft.Fails settings s e := by
  unfold compile
  rw [Composed.mapM_eq_error_iff]
  simp only [StatementDraft.compile_eq_ok_iff, StatementDraft.compile_eq_error_iff]

end Batch

/-- A JSON file of statements that are read as drafts loads as the batch of the drafts. -/
theorem Batch.load_of_statements {source : FileSource} {path content : String}
    {drafts : List StatementDraft} (form : Json.BatchForm) (statements : List Json.Tree)
    (h : source path = .ok content.toUTF8) (hpath : extension? path = some "json")
    (hcontent : content = String.ofList (form.tree statements).compact)
    (hdrafts : statements.mapM Json.draft? = some drafts) :
    Batch.load source path = .ok ⟨drafts⟩ := by
  have hwritten : (form.tree statements).WrittenBy content := by
    rw [hcontent]
    exact Json.Tree.writtenBy_compact _
  rw [Batch.load_of_json h hpath, Json.ofJson_of_writtenBy hwritten, hdrafts]

/-! ### Output -/

/-- The output shows the texts in a format: each text and a line break, or JSON that reads back as
    the list of the texts. -/
def OutputFormat.Shows (texts : List String) (output : String) : OutputFormat → Prop
  | text => output = String.join (texts.map (· ++ "\n"))
  | json => Json.document? output = some (.list (texts.map .text))

theorem OutputFormat.shows_print (format : OutputFormat) (texts : List String) :
    format.Shows texts (format.print texts) := by
  cases format with
  | text => rfl
  | json =>
      refine Json.document?_textList texts ?_
      intro c hc
      rw [List.mem_singleton.mp hc]
      rfl

/-! ### Runs -/

/-- The settings and the file load, and every statement of the file gives its text. -/
structure Builds (source : FileSource) (named usual : Option String) (file : String)
    (settings : Settings) (texts : List String) : Prop where
  loads : Settings.load source named usual = .ok settings
  gives : ∃ b, Batch.load source file = .ok b ∧
    List.Forall₂ (StatementDraft.Gives settings) b.statements texts

section Build

variable {source : FileSource} {named usual : Option String} {file : String}
  (format : Option OutputFormat)

/-- What builds is printed in the format asked for, else in that of the settings. -/
theorem build_of_builds {settings : Settings} {texts : List String}
    (h : Builds source named usual file settings texts) :
    build source named usual file format =
      .success ((format.getD settings.format).print texts) := by
  obtain ⟨hsettings, b, hfile, htexts⟩ := h
  unfold build
  rw [hsettings, hfile]
  dsimp only
  rw [Batch.compile_eq_ok_iff.mpr htexts]

/-- What does not build fails without output; where both files load, as the first statement that
    fails. -/
theorem build_of_not_builds (h : ¬∃ settings texts, Builds source named usual file settings texts) :
    ∃ message, build source named usual file format = .failure "" message ∧
      ∀ settings b, Settings.load source named usual = .ok settings →
        Batch.load source file = .ok b →
        ∃ before s after e, b.statements = before ++ s :: after ∧
          (∀ x ∈ before, ∃ text, StatementDraft.Gives settings x text) ∧
          StatementDraft.Fails settings s e ∧ message = e.fullMessage := by
  unfold build
  cases hsettings : Settings.load source named usual with
  | error e => exact ⟨_, rfl, nofun⟩
  | ok settings =>
      cases hfile : Batch.load source file with
      | error e => exact ⟨_, rfl, nofun⟩
      | ok b =>
          cases hcompile : b.compile settings with
          | ok texts =>
              exact absurd ⟨settings, texts, hsettings, b, hfile,
                Batch.compile_eq_ok_iff.mp hcompile⟩ h
          | error e =>
              refine ⟨e.fullMessage, by dsimp only; rw [hcompile], ?_⟩
              rintro _ _ ⟨⟩ ⟨⟩
              obtain ⟨before, s, after, hstatements, hbefore, hs⟩ :=
                Batch.compile_eq_error_iff.mp hcompile
              exact ⟨before, s, after, e, hstatements, hbefore, hs, rfl⟩

/-- A run with the command to build builds the file that the arguments name. -/
theorem runArguments_build {environment : Option String} {args : List String} {i : Invocation}
    {format : Option OutputFormat} (hargs : Invocation.ofArguments? environment args = some i)
    (hcommand : i.command = .build file format) :
    runArguments source usual environment args =
      build source i.settingsPath usual file format := by
  unfold runArguments Invocation.run
  rw [hargs]
  dsimp only
  rw [hcommand]

end Build

/-- **A run that builds a file succeeds exactly when everything loads and every statement gives a
    text, and then shows all the texts; otherwise it prints nothing, and where everything loads its
    error is that of the first statement that fails.** -/
theorem run_build_all_or_nothing {source : FileSource} {usual environment : Option String}
    {args : List String} {i : Invocation} {file : String} {format : Option OutputFormat}
    (hargs : Invocation.ofArguments? environment args = some i)
    (hcommand : i.command = .build file format) :
    ((runArguments source usual environment args).exitCode = 0 ↔
      ∃ settings texts, Builds source i.settingsPath usual file settings texts) ∧
    (∀ settings texts, Builds source i.settingsPath usual file settings texts →
      (format.getD settings.format).Shows texts
        (runArguments source usual environment args).output) ∧
    ((runArguments source usual environment args).exitCode ≠ 0 →
      (runArguments source usual environment args).exitCode = 1 ∧
      (runArguments source usual environment args).output = "" ∧
      ∀ settings b, Settings.load source i.settingsPath usual = .ok settings →
        Batch.load source file = .ok b →
        ∃ before s after e, b.statements = before ++ s :: after ∧
          (∀ x ∈ before, ∃ text, StatementDraft.Gives settings x text) ∧
          StatementDraft.Fails settings s e ∧
          (runArguments source usual environment args).message? = some e.fullMessage) := by
  rw [runArguments_build hargs hcommand]
  by_cases h : ∃ settings texts, Builds source i.settingsPath usual file settings texts
  · obtain ⟨settings, texts, hbuilds⟩ := h
    have hsuccess {settings : Settings} {texts : List String}
        (h : Builds source i.settingsPath usual file settings texts) :
        build source i.settingsPath usual file format =
          .success ((format.getD settings.format).print texts) := build_of_builds format h
    refine ⟨?_, ?_, ?_⟩
    · rw [hsuccess hbuilds]
      exact ⟨fun _ => ⟨settings, texts, hbuilds⟩, fun _ => rfl⟩
    · intro settings texts h
      rw [hsuccess h]
      exact OutputFormat.shows_print _ texts
    · intro hexit
      rw [hsuccess hbuilds] at hexit
      exact absurd rfl hexit
  · obtain ⟨message, hfailure, hfirst⟩ := build_of_not_builds format h
    rw [hfailure]
    refine ⟨⟨nofun, fun hbuilds => absurd hbuilds h⟩,
      fun settings texts hbuilds => absurd ⟨settings, texts, hbuilds⟩ h,
      fun _ => ⟨rfl, rfl, ?_⟩⟩
    intro settings b hsettings hfile
    obtain ⟨before, s, after, e, hstatements, hbefore, hs, rfl⟩ := hfirst settings b hsettings hfile
    exact ⟨before, s, after, e, hstatements, hbefore, hs, rfl⟩

/-- Of two files one is printed as JSON, its text with quotes in it; the other fails as its second
    statement, though its third names no measurement to delete from. -/
theorem run_build_of_two_files :
    let drop := "\x7b\"kind\":\"drop_database\",\"name\":\"a\"\x7d"
    let dropPolicy := "\x7b\"kind\":\"drop_retention_policy\",\"name\":\"week\"\x7d"
    let delete := "\x7b\"kind\":\"delete\"\x7d"
    let listing := "\x7b\"kind\":\"show_databases\"\x7d"
    let good := "\x7b\"statement\":[" ++ drop ++ "," ++ listing ++ "]\x7d"
    let bad := "\x7b\"statement\":[" ++ drop ++ "," ++ dropPolicy ++ "," ++ delete ++ "]\x7d"
    let source := (FileTree.ofList [("good.json", good.toUTF8), ("bad.json", bad.toUTF8)]).source
    let args := ["build", "good.json", "--format", "json"]
    let args' := ["build", "bad.json"]
    Invocation.ofArguments? none args =
        some ⟨none, false, .build "good.json" (some .json)⟩ ∧
      (runArguments source none none args).exitCode = 0 ∧
      Json.document? (runArguments source none none args).output =
        some (.list [.text "DROP DATABASE \"a\"", .text "SHOW DATABASES"]) ∧
      Invocation.ofArguments? none args' = some ⟨none, false, .build "bad.json" none⟩ ∧
      (runArguments source none none args').exitCode = 1 ∧
      (runArguments source none none args').output = "" ∧
      (runArguments source none none args').message? =
        some "Configuration error: no database given and none configured" := by
  intro drop dropPolicy delete listing good bad source args args'
  let dropTree : Json.Tree := .ofKind "drop_database" (by decide)
    [(.ofText "name" (by decide), .ofText "a" (by decide))]
  let dropPolicyTree : Json.Tree := .ofKind "drop_retention_policy" (by decide)
    [(.ofText "name" (by decide), .ofText "week" (by decide))]
  let deleteTree : Json.Tree := .ofKind "delete" (by decide) []
  let listingTree : Json.Tree := .ofKind "show_databases" (by decide) []
  have hapart : FileTree.Apart [["good.json"], ["bad.json"]] := by decide
  obtain ⟨hread, -⟩ := @FileTree.source_ofList
    [(["good.json"], good.toUTF8), (["bad.json"], bad.toUTF8)] hapart
  have hreadGood : source "good.json" = .ok good.toUTF8 := hread _ (List.mem_cons_self ..)
  have hreadBad : source "bad.json" = .ok bad.toUTF8 :=
    hread _ (List.mem_cons_of_mem _ (List.mem_cons_self ..))
  have hgood : Batch.load source "good.json" =
      .ok ⟨[.object .dropDatabase "a", .showDatabases]⟩ :=
    Batch.load_of_statements .plain [dropTree, listingTree] hreadGood (by decide)
      (by decide +kernel) rfl
  have hbad : Batch.load source "bad.json" = .ok ⟨[.object .dropDatabase "a",
      .dropRetentionPolicy "week" none, .delete ⟨none, []⟩]⟩ :=
    Batch.load_of_statements .plain [dropTree, dropPolicyTree, deleteTree] hreadBad (by decide)
      (by decide +kernel) rfl
  have hargs : Invocation.ofArguments? none args =
      some ⟨none, false, .build "good.json" (some .json)⟩ := by decide +kernel
  have hargs' : Invocation.ofArguments? none args' =
      some ⟨none, false, .build "bad.json" none⟩ := by decide +kernel
  have hbuilds : Builds source none none "good.json" .empty
      ["DROP DATABASE \"a\"", "SHOW DATABASES"] :=
    ⟨rfl, _, hgood, .cons ⟨_, rfl, rfl⟩ (.cons ⟨_, rfl, rfl⟩ .nil)⟩
  obtain ⟨hexit, hshows, -⟩ := @run_build_all_or_nothing source none none _ _ _ _ hargs rfl
  obtain ⟨hexit', -, hfails⟩ := @run_build_all_or_nothing source none none _ _ _ _ hargs' rfl
  have hcompile : Batch.compile .empty ⟨[.object .dropDatabase "a",
      .dropRetentionPolicy "week" none, .delete ⟨none, []⟩]⟩ = .error .noDatabase := rfl
  have hnone : (runArguments source none none args').exitCode ≠ 0 := by
    intro hzero
    obtain ⟨settings, texts, hload, b, hb, hgives⟩ := hexit'.mp hzero
    cases hload
    rw [hbad] at hb
    cases hb
    rw [Batch.compile_eq_ok_iff.mpr hgives] at hcompile
    cases hcompile
  obtain ⟨hone, houtput, hfirst⟩ := hfails hnone
  obtain ⟨before, s, after, e, hstatements, hbefore, hs, hmessage⟩ := hfirst _ _ rfl hbad
  have herror := Batch.compile_eq_error_iff.mpr ⟨before, s, after, hstatements, hbefore, hs⟩
  rw [hcompile] at herror
  cases herror
  exact ⟨hargs, hexit.mpr ⟨_, _, hbuilds⟩, hshows _ _ hbuilds, hargs', hone, houtput, hmessage⟩

end SeriesQuery
