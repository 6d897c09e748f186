/-
What the settings fill in.

A draft may leave its database or its retention policy open.  Building looks at the settings for
these two holes and for nothing else, so a draft under some settings means what the draft with
its holes filled means under no settings at all.  Each of the two lemmas below closes one kind of
hole by going through the kinds of draft; what a draft gives itself, the format of the output,
and the drafts without a hole then need no argument of their own.
-/
import SeriesQuery.Draft.Statement

namespace SeriesQuery.StatementDraft

/-! ### Holes -/

/-- Whether the statement takes a database and the draft names none. -/
def lacksDatabase : StatementDraft → Bool
  | retentionPolicy s _ => s.database.isNone
  | dropRetentionPolicy _ database => database.isNone
  | list _ database => database.isNone
  | showKeys _ s => s.database.isNone
  | select _ | delete _ | object _ _ | showDatabases => false

/-- Whether the statement takes a retention policy and the draft names none.  The policy of keys
    needs a measurement to qualify. -/
def lacksPolicy : StatementDraft → Bool
  | select s => s.retentionPolicy.isNone
  | showKeys _ s => s.measurement.isSome && s.retentionPolicy.isNone
  | delete _ | object _ _ | retentionPolicy _ _ | dropRetentionPolicy _ _ | list _ _
  | showDatabases => false

/-- The draft with another database, if the statement takes one. -/
def withDatabase (database : Option String) : StatementDraft → StatementDraft
  | retentionPolicy s isAlter => retentionPolicy { s with database := database } isAlter
  | dropRetentionPolicy name _ => dropRetentionPolicy name database
  | list what _ => list what database
  | showKeys kind s => showKeys kind { s with database := database }
  | d => d

/-- The draft with another retention policy, if the statement takes one. -/
def withPolicy (policy : Option String) : StatementDraft → StatementDraft
  | select s => select { s with retentionPolicy := policy }
  | showKeys kind s => showKeys kind { s with retentionPolicy := policy }
  | d => d

/-- The draft with a database where it lacks one. -/
def fillDatabase (database : Option String) (d : StatementDraft) : StatementDraft :=
  if d.lacksDatabase then d.withDatabase database else d

/-- The draft with a retention policy where it lacks one. -/
def fillPolicy (policy : Option String) (d : StatementDraft) : StatementDraft :=
  if d.lacksPolicy then d.withPolicy policy else d

/-- The draft with its holes filled from the settings. -/
def filled (settings : Settings) (d : StatementDraft) : StatementDraft :=
  (d.fillDatabase settings.database).fillPolicy settings.retentionPolicy

/-- Whether the statement takes neither a database nor a retention policy from the settings. -/
def isSelfContained : StatementDraft → Bool
  | delete _ | object _ _ | showDatabases => true
  | select _ | retentionPolicy _ _ | dropRetentionPolicy _ _ | list _ _ | showKeys _ _ => false

theorem lacks_of_isSelfContained {d : StatementDraft} (h : d.isSelfContained = true) :
    d.lacksDatabase = false ∧ d.lacksPolicy = false := by
  cases d with
  | delete s => exact ⟨rfl, rfl⟩
  | object action name => exact ⟨rfl, rfl⟩
  | showDatabases => exact ⟨rfl, rfl⟩
  | _ => cases h

/-! ### Building fills the holes -/

/-- A database that is given beats the settings, and one that is not comes from them. -/
theorem build_fillDatabase (settings : Settings) (d : StatementDraft) :
    (d.fillDatabase settings.database).build { settings with database := none } =
      d.build settings := by
  unfold fillDatabase
  cases d with
  | select s => rfl
  | delete s => rfl
  | object action name => rfl
  | showDatabases => rfl
  | retentionPolicy s isAlter =>
      obtain ⟨name, database, duration, replication, shardDuration, isDefault⟩ := s
      cases database <;> cases hdatabase : settings.database <;>
        simp [lacksDatabase, withDatabase, build, RetentionPolicyDraft.build,
          Settings.requireDatabase, hdatabase]
  | dropRetentionPolicy name database =>
      cases database <;> cases hdatabase : settings.database <;>
        simp [lacksDatabase, withDatabase, build, Settings.requireDatabase, hdatabase]
  | list what database =>
      cases database <;> cases hdatabase : settings.database <;>
        simp [lacksDatabase, withDatabase, build, hdatabase]
  | showKeys kind s =>
      obtain ⟨database, measurement, policy⟩ := s
      cases database <;> cases hdatabase : settings.database <;>
        simp [lacksDatabase, withDatabase, build, KeysDraft.build, KeysDraft.effectivePolicy,
          hdatabase]

/-- A policy that is given beats the settings, and one that is not comes from them, where there
    is a measurement to qualify. -/
theorem build_fillPolicy (settings : Settings) (d : StatementDraft) :
    (d.fillPolicy settings.retentionPolicy).build { settings with retentionPolicy := none } =
      d.build settings := by
  unfold fillPolicy
  cases d with
  | delete s => rfl
  | object action name => rfl
  | retentionPolicy s isAlter => rfl
  | dropRetentionPolicy name database => rfl
  | list what database => rfl
  | showDatabases => rfl
  | select s =>
      cases hpolicy : s.retentionPolicy <;> cases hsettings : settings.retentionPolicy <;>
        simp [lacksPolicy, withPolicy, build, SelectDraft.build, hpolicy, hsettings]
  | showKeys kind s =>
      obtain ⟨database, measurement, policy⟩ := s
      cases measurement <;> cases policy <;>
        cases hsettings : settings.retentionPolicy <;>
          simp [lacksPolicy, withPolicy, build, KeysDraft.build, KeysDraft.effectivePolicy,
            hsettings]

/-- Building does not look at the format of the output. -/
theorem build_withFormat (settings : Settings) (format : OutputFormat) (d : StatementDraft) :
    d.build { settings with format := format } = d.build settings := by
  cases d <;> rfl

/-- What a draft means is what the draft with its holes filled means without settings. -/
theorem build_filled (settings : Settings) (d : StatementDraft) :
    (d.filled settings).build .empty = d.build settings := by
  calc (d.filled settings).build .empty
      = (d.filled settings).build ⟨none, none, settings.format⟩ :=
        (build_withFormat Settings.empty settings.format _).symm
    _ = (d.fillDatabase settings.database).build
          { settings with database := none } := by
        exact build_fillPolicy { settings with database := none } _
    _ = d.build settings := build_fillDatabase settings d

/-- Settings that agree on the holes of a draft fill it alike. -/
theorem filled_eq_of_agree {settings settings' : Settings} {d : StatementDraft}
    (hdatabase : d.lacksDatabase = true → settings'.database = settings.database)
    (hpolicy : d.lacksPolicy = true → settings'.retentionPolicy = settings.retentionPolicy) :
    d.filled settings' = d.filled settings := by
  have hkept : (d.fillDatabase settings.database).lacksPolicy = d.lacksPolicy := by
    unfold fillDatabase
    split <;> cases d <;> rfl
  have hfirst : d.fillDatabase settings'.database = d.fillDatabase settings.database := by
    unfold fillDatabase
    split
    · rename_i hlacks
      rw [hdatabase hlacks]
    · rfl
  unfold filled
  rw [hfirst]
  unfold fillPolicy
  split
  · rename_i hlacks
    rw [hpolicy (hkept ▸ hlacks)]
  · rfl

theorem compile_eq_of_agree {settings settings' : Settings} {d : StatementDraft}
    (hdatabase : d.lacksDatabase = true → settings'.database = settings.database)
    (hpolicy : d.lacksPolicy = true → settings'.retentionPolicy = settings.retentionPolicy) :
    d.compile settings' = d.compile settings := by
  unfold compile
  rw [← build_filled settings', ← build_filled settings, filled_eq_of_agree hdatabase hpolicy]

/--
**Settings only fill holes.**  A draft gives under any settings, text or failure, what the draft
with its holes filled gives under none.  So settings that agree on the holes of a draft make no
difference to it: a database or policy that the draft names stands whatever the settings name,
the format of the output never counts, and a DELETE, a statement about one object and SHOW
DATABASES are the same under all settings.
-/
theorem settings_fill_holes (d : StatementDraft) (settings : Settings) :
    d.compile settings = (d.filled settings).compile .empty ∧
    (d.lacksDatabase = false → ∀ database : Option String,
      d.compile { settings with database := database } = d.compile settings) ∧
    (d.lacksPolicy = false → ∀ policy : Option String,
      d.compile { settings with retentionPolicy := policy } = d.compile settings) ∧
    (∀ format : OutputFormat,
      d.compile { settings with format := format } = d.compile settings) ∧
    (d.isSelfContained = true → ∀ settings' : Settings,
      d.compile settings' = d.compile settings) := by
  refine ⟨?_, ?_, ?_, ?_, ?_⟩
  · unfold compile
    rw [build_filled]
  · intro hgiven database
    exact compile_eq_of_agree (by simp [hgiven]) fun _ => rfl
  · intro hgiven policy
    exact compile_eq_of_agree (fun _ => rfl) (by simp [hgiven])
  · intro format
    exact compile_eq_of_agree (fun _ => rfl) fun _ => rfl
  · intro hself settings'
    obtain ⟨hdatabase, hpolicy⟩ := lacks_of_isSelfContained hself
    exact compile_eq_of_agree (by simp [hdatabase]) (by simp [hpolicy])

/-- The keys of a measurement on a database of their own take the policy alone from the settings. -/
theorem settings_fill_holes_of_keys :
    let d : StatementDraft := showKeys .tag ⟨some "own", some "cpu", none⟩
    let settings : Settings := ⟨some "other", some "week", .json⟩
    d.lacksDatabase = false ∧
      d.filled settings = showKeys .tag ⟨some "own", some "cpu", some "week"⟩ ∧
      d.compile settings = .ok "SHOW TAG KEYS ON \"own\" FROM \"week\".\"cpu\"" ∧
      d.compile { settings with database := none } = d.compile settings := by
  intro d settings
  obtain ⟨hfilled, hdatabase, -⟩ := settings_fill_holes d settings
  refine ⟨rfl, rfl, ?_, hdatabase rfl none⟩
  rw [hfilled]
  rfl

end SeriesQuery.StatementDraft
