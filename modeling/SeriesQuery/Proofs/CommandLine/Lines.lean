/-
One statement a line.

A run that prints text puts a line feed behind each statement and changes nothing else.  So its
output is cut into the statements exactly when none of them has a line feed, and a statement has
the line feeds of the texts it is written with: the names, function names, aliases, conditions and
text values of the file, and what the settings fill in.  A text that holds a line feed is written
with it, and the statement takes a line more for each.
-/
import SeriesQuery.Proofs.CommandLine.Build
import SeriesQuery.Proofs.Draft.LineFeeds

namespace SeriesQuery

open Text

/-- A build that succeeds has loaded all and composed every statement. -/
theorem exists_builds_of_exitCode {source : FileSource} {named usual : Option String}
    {file : String} {format : Option OutputFormat}
    (h : (build source named usual file format).exitCode = 0) :
    ∃ settings texts, Builds source named usual file settings texts := by
  by_contra hnone
  obtain ⟨message, hfailure, -⟩ := build_of_not_builds format hnone
  rw [hfailure] at h
  cases h

/-- The statements of a batch have the line feeds of the texts they are written with. -/
theorem Batch.exists_feed_iff {b : Batch} {settings : Settings} {texts : List String}
    (h : b.compile settings = .ok texts) :
    (∀ t ∈ texts, '\n' ∉ t.toList) ↔ ∀ t ∈ b.shown settings, '\n' ∉ t.toList := by
  rw [← totalFeeds_eq_zero_iff, ← totalFeeds_eq_zero_iff, b.hasSize_compile settings texts h]

/--
**Text output has one statement a line exactly when no text it is written with has a line feed.**
Where a run that builds a file as text succeeds, everything has loaded and every statement has
composed.  The lines of its output are the statements, in order, exactly when there is no line
feed in the names, function names, aliases, conditions and text values that the statements are
written with, whether the file or the settings give them; and there are as many lines as
statements and such line feeds.
-/
theorem run_build_one_statement_a_line {source : FileSource} {usual environment : Option String}
    {args : List String} {i : Invocation} {file : String} {format : Option OutputFormat}
    (hargs : Invocation.ofArguments? environment args = some i)
    (hcommand : i.command = .build file format)
    (hexit : (runArguments source usual environment args).exitCode = 0) :
    ∃ settings b texts, Settings.load source i.settingsPath usual = .ok settings ∧
      Batch.load source file = .ok b ∧ b.compile settings = .ok texts ∧
      (format.getD settings.format = .text →
        (lines (runArguments source usual environment args).output = texts ↔
          ∀ t ∈ b.shown settings, '\n' ∉ t.toList) ∧
        (lines (runArguments source usual environment args).output).length =
          b.statements.length + totalFeeds (b.shown settings)) := by
  rw [runArguments_build hargs hcommand] at hexit ⊢
  obtain ⟨settings, texts, hbuilds⟩ := exists_builds_of_exitCode hexit
  obtain ⟨hsettings, b, hfile, hgives⟩ := hbuilds
  have hcompile : b.compile settings = .ok texts := Batch.compile_eq_ok_iff.mpr hgives
  refine ⟨settings, b, texts, hsettings, hfile, hcompile, fun hformat => ?_⟩
  have houtput : (build source i.settingsPath usual file format).output = unlines texts := by
    rw [build_of_builds format ⟨hsettings, b, hfile, hgives⟩, hformat]
    rfl
  rw [houtput, lines_unlines_eq_iff, Batch.exists_feed_iff hcompile, length_lines_unlines,
    b.hasSize_compile settings texts hcompile, hgives.length_eq]
  exact ⟨Iff.rfl, rfl⟩

/-- Shorthand whose words stand on two lines of the file is written on one. -/
theorem run_build_of_broken_shorthand :
    let condition := "\x7b\"expr\":\"host\\n=\",\"values\":[\"a\"]\x7d"
    let content := "\x7b\"statement\":[\x7b\"kind\":\"select\",\"from\":\"cpu\"," ++
      "\"where\":[" ++ condition ++ "]\x7d,\x7b\"kind\":\"show_databases\"\x7d]\x7d"
    let source : FileSource := fun _ => .ok content.toUTF8
    let args := ["build", "q.json"]
    Invocation.ofArguments? none args = some ⟨none, false, .build "q.json" none⟩ ∧
      (runArguments source none none args).exitCode = 0 ∧
      lines (runArguments source none none args).output =
        ["SELECT * FROM \"cpu\" WHERE \"host\" = 'a'", "SHOW DATABASES"] := by
  intro condition content source args
  let host : Json.Tree := .table
    [(.ofText "expr" (by decide), .ofText "host\\n=" (by decide)),
      (.ofText "values" (by decide), .list [.ofText "a" (by decide)])]
  let select : Json.Tree := .ofKind "select" (by decide)
    [(.ofText "from" (by decide), .ofText "cpu" (by decide)),
      (.ofText "where" (by decide), .list [host])]
  let listing : Json.Tree := .ofKind "show_databases" (by decide) []
  let b : Batch := ⟨[.select ⟨[], some "cpu", none, [⟨"host\n=", [.text "a"], .and⟩], [], [],
    none, none, none, none, none⟩, .showDatabases]⟩
  have hargs : Invocation.ofArguments? none args =
      some ⟨none, false, .build "q.json" none⟩ := by decide +kernel
  have hload : Batch.load source "q.json" = .ok b :=
    Batch.load_of_statements .plain [select, listing] rfl (by decide) (by decide +kernel) rfl
  have hcompile : b.compile .empty =
      .ok ["SELECT * FROM \"cpu\" WHERE \"host\" = 'a'", "SHOW DATABASES"] := by decide +kernel
  have hbuilds : Builds source none none "q.json" .empty _ :=
    ⟨rfl, b, hload, Batch.compile_eq_ok_iff.mp hcompile⟩
  have hexit : (runArguments source none none args).exitCode = 0 := by
    rw [runArguments_build hargs rfl, build_of_builds none hbuilds]
    rfl
  obtain ⟨settings, b', texts, hsettings, hfile, htexts, hlines⟩ :=
    run_build_one_statement_a_line hargs rfl hexit
  cases hsettings
  rw [hload] at hfile
  cases hfile
  rw [hcompile] at htexts
  cases htexts
  exact ⟨hargs, hexit, (hlines rfl).1.mpr (by decide +kernel)⟩

/-- A name with a line feed in it takes two lines. -/
theorem run_build_of_broken_name :
    let content := "\x7b\"statement\":[\x7b\"kind\":\"drop_measurement\"," ++
      "\"name\":\"a\\nb\"\x7d]\x7d"
    let source : FileSource := fun _ => .ok content.toUTF8
    let args := ["build", "q.json"]
    let b : Batch := ⟨[.object .dropMeasurement "a\nb"]⟩
    Invocation.ofArguments? none args = some ⟨none, false, .build "q.json" none⟩ ∧
      (runArguments source none none args).exitCode = 0 ∧
      Settings.load source none none = .ok .empty ∧ Settings.empty.format = .text ∧
      Batch.load source "q.json" = .ok b ∧
      b.compile .empty = .ok ["DROP MEASUREMENT \"a\nb\""] ∧
      lines (runArguments source none none args).output = ["DROP MEASUREMENT \"a", "b\""] ∧
      lines (runArguments source none none args).output ≠ ["DROP MEASUREMENT \"a\nb\""] := by
  intro content source args b
  let drop : Json.Tree := .ofKind "drop_measurement" (by decide)
    [(.ofText "name" (by decide), .ofText "a\\nb" (by decide))]
  have hargs : Invocation.ofArguments? none args =
      some ⟨none, false, .build "q.json" none⟩ := by decide +kernel
  have hload : Batch.load source "q.json" = .ok b :=
    Batch.load_of_statements .plain [drop] rfl (by decide) (by decide +kernel) rfl
  have hbuilds : Builds source none none "q.json" .empty ["DROP MEASUREMENT \"a\nb\""] :=
    ⟨rfl, b, hload, .cons ⟨_, rfl, rfl⟩ .nil⟩
  have hrun : runArguments source none none args =
      .success (unlines ["DROP MEASUREMENT \"a\nb\""]) := by
    rw [runArguments_build hargs rfl, build_of_builds none hbuilds]
    rfl
  rw [hrun]
  exact ⟨hargs, rfl, rfl, rfl, hload, rfl, by decide +kernel, by decide +kernel⟩

end SeriesQuery
