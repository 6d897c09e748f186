/-
The configured retention policy.

The settings may name a retention policy for statements that name none.  A SELECT, a SHOW TAG
KEYS or a SHOW FIELD KEYS that leaves its policy open reads from the configured policy's
measurement: the policy and a dot stand in front of the measurement, and nothing else in the
statement shows the policy.  Whether the measurement is qualified already makes no difference to
that, so `week.cpu` comes out with three parts, and the statement depends on the settings.
-/
import SeriesQuery.Draft.Statement
import SeriesQuery.Proofs.Identifier
import SeriesQuery.Proofs.Statement.Parts

namespace SeriesQuery

/-! ### Qualified names -/

namespace Identifier

/-- One part of a qualified name. -/
def IsPart (s : String) : Prop :=
  s ≠ "" ∧ '"' ∉ s.toList ∧ '.' ∉ s.toList

instance (s : String) : Decidable (IsPart s) :=
  inferInstanceAs (Decidable (_ ∧ _ ∧ _))

/-- A measurement that has a retention policy: two parts with a dot between them, both bare or
    both between quotes. -/
def IsQualified (name : String) : Prop :=
  ∃ policy measurement, IsPart policy ∧ IsPart measurement ∧
    (name = policy ++ "." ++ measurement ∨
      name = "\"" ++ policy ++ "\".\"" ++ measurement ++ "\"")

/-- A qualified name is written as it stands. -/
theorem text_of_isQualified {name : String} (h : IsQualified name) : text name = name := by
  have hdot : name.toList.contains '.' = true := by
    obtain ⟨policy, measurement, -, -, rfl | rfl⟩ := h <;> simp
  unfold text isVerbatim
  rw [hdot, Bool.or_true, Bool.true_or, if_pos rfl]

end Identifier

/-- The policy of a qualified name can be told from the whole. -/
theorem qualifiedName_inj {policy policy' : Option String} {measurement : String} :
    qualifiedName policy measurement = qualifiedName policy' measurement ↔ policy = policy' := by
  have hne : ∀ p : String, p ++ "." ++ measurement ≠ measurement := by
    intro p
    simp
  cases policy with
  | none =>
      cases policy' with
      | none => simp
      | some p' => simp [qualifiedName, (hne p').symm]
  | some p =>
      cases policy' with
      | none => simp [qualifiedName]
      | some p' => simp [qualifiedName]

/-! ### What shows the policy -/

/-- The policy of a SELECT shows in front of its measurement only. -/
theorem Select.compile_withPolicy {s : Select Fragment} {measurement : String}
    (hs : s.measurement = some (.name measurement)) (policy : Option String) :
    (Statement.select { s with retentionPolicy := policy.map Fragment.name }).compile =
      (fun c => c.selecting ++
        (" FROM " ++ qualifiedName (policy.map Identifier.text) (Identifier.text measurement)) ++
        (whereSection c.conditions ++ c.further)) <$>
          clauses { s with retentionPolicy := none } := by
  have hnone : Fragment.compileOption none = .ok none := Fragment.compileOption_name none
  have hname : (Fragment.name measurement).compile = .ok (Identifier.text measurement) := rfl
  rw [compile_eq_clauses]
  unfold clauses
  simp only [hs, hname, Fragment.compileOption_name, hnone, map_bind, map_pure,
    Composed.ok_bind, Clauses.text_eq, String.append_assoc]
  rfl

/-- The SELECT that a draft means. -/
theorem SelectDraft.measurement_of_build {s : SelectDraft} {settings : Settings}
    {select : Select Fragment} (h : s.build settings = .ok select) :
    select.measurement = s.measurement.map Fragment.name := by
  unfold build at h
  obtain ⟨_, -, h⟩ := Composed.bind_eq_ok_iff.mp h
  obtain ⟨_, -, h⟩ := Composed.bind_eq_ok_iff.mp h
  obtain ⟨_, -, h⟩ := Composed.bind_eq_ok_iff.mp h
  obtain ⟨_, -, h⟩ := Composed.bind_eq_ok_iff.mp h
  obtain ⟨_, -, h⟩ := Composed.bind_eq_ok_iff.mp h
  cases h
  rfl

/-- The policy that the settings name is the policy of the SELECT that a draft means. -/
theorem SelectDraft.build_withPolicy {s : SelectDraft} (hs : s.retentionPolicy = none)
    (settings : Settings) (policy : Option String) :
    s.build { settings with retentionPolicy := policy } =
      (fun x => { x with retentionPolicy := policy.map Fragment.name }) <$>
        s.build { settings with retentionPolicy := none } := by
  unfold build
  simp only [hs, map_bind, map_pure]
  rfl

namespace StatementDraft

theorem compile_select (settings : Settings) (s : SelectDraft) :
    (select s).compile settings =
      s.build settings >>= fun select => (Statement.select select).compile := by
  show Except.map Statement.select (s.build settings) >>= Statement.compile = _
  cases s.build settings <;> rfl

theorem compile_showKeys (settings : Settings) (kind : KeyKind) (s : KeysDraft) :
    (showKeys kind s).compile settings = (Statement.showKeys kind (s.build settings)).compile :=
  rfl

/-- The draft reads from the measurement and names no retention policy. -/
inductive LeavesPolicyOpen (measurement : String) : StatementDraft → Prop
  | select {s : SelectDraft} (hm : s.measurement = some measurement)
      (hp : s.retentionPolicy = none) : LeavesPolicyOpen measurement (.select s)
  | showKeys (kind : KeyKind) {s : KeysDraft} (hm : s.measurement = some measurement)
      (hp : s.retentionPolicy = none) : LeavesPolicyOpen measurement (.showKeys kind s)

/-- The configured policy decides on the source of the statement and on nothing else. -/
theorem exists_frame {measurement : String} {d : StatementDraft}
    (h : d.LeavesPolicyOpen measurement) (settings : Settings) :
    ∃ frame : Composed (String × String), ∀ policy : Option String,
      d.compile { settings with retentionPolicy := policy } =
        (fun frame => frame.1 ++ (" FROM " ++
          qualifiedName (policy.map Identifier.text) (Identifier.text measurement)) ++
          frame.2) <$> frame := by
  cases h with
  | @select s hm hp =>
      have hpolicy := SelectDraft.build_withPolicy hp settings
      cases hbuild : s.build { settings with retentionPolicy := none } with
      | error e =>
          refine ⟨.error e, fun policy => ?_⟩
          rw [compile_select, hpolicy, hbuild]
          rfl
      | ok select =>
          have hmeasurement : select.measurement = some (.name measurement) := by
            rw [SelectDraft.measurement_of_build hbuild, hm]
            rfl
          refine ⟨(fun c => (c.selecting, whereSection c.conditions ++ c.further)) <$>
            Select.clauses { select with retentionPolicy := none }, fun policy => ?_⟩
          rw [compile_select, hpolicy, hbuild, Composed.map_ok, Composed.ok_bind,
            Select.compile_withPolicy hmeasurement]
          simp only [Functor.map_map]
  | @showKeys kind s hm hp =>
      refine ⟨.ok (Phrases.text ("SHOW" :: (Phrases.bare kind.keywords ++ Phrases.clause "ON"
        ((s.database <|> settings.database).map Identifier.text))), ""), fun policy => ?_⟩
      have hbuild : s.build { settings with retentionPolicy := policy } =
          ⟨(s.database <|> settings.database).map Fragment.name, some (.name measurement),
            policy.map Fragment.name⟩ := by
        unfold KeysDraft.build KeysDraft.effectivePolicy
        rw [hm, hp]
        rfl
      rw [compile_showKeys, hbuild, KeysScope.compile_names, showText_source, Composed.map_ok,
        String.append_empty]

/-- In a frame, sources that differ make statements that differ. -/
private theorem frame_inj {before after source source' : String} :
    before ++ (" FROM " ++ source) ++ after = before ++ (" FROM " ++ source') ++ after ↔
      source = source' := by
  rw [String.append_left_inj, String.append_right_inj, String.append_right_inj]

/--
**A configured policy shows in qualified names as well.**  Take a draft that reads from a
qualified measurement and names no retention policy, and two settings that differ in the policy
alone.  The draft gives the same under both exactly when the two policies are written alike, or
it fails anyway.  A configured policy stands, with a dot, in front of the two parts that the
measurement has already.
-/
theorem configured_policy_shows {measurement : String} {d : StatementDraft}
    (h : d.LeavesPolicyOpen measurement) (hqualified : Identifier.IsQualified measurement)
    {settings settings' : Settings} (hdatabase : settings'.database = settings.database)
    (hformat : settings'.format = settings.format) :
    (d.compile settings = d.compile settings' ↔
      settings.retentionPolicy.map Identifier.text =
        settings'.retentionPolicy.map Identifier.text ∨
      ∃ e, d.compile settings = .error e) ∧
    ∀ policy text, settings.retentionPolicy = some policy → d.compile settings = .ok text →
      ∃ before after,
        text = before ++ (" FROM " ++ (Identifier.text policy ++ "." ++ measurement)) ++ after ∧
        d.compile { settings with retentionPolicy := none } =
          .ok (before ++ (" FROM " ++ measurement) ++ after) := by
  obtain ⟨frame, hframe⟩ := exists_frame h settings
  have hsettings := hframe settings.retentionPolicy
  have hsettings' := hframe settings'.retentionPolicy
  rw [← hdatabase, ← hformat] at hsettings'
  have hverbatim := Identifier.text_of_isQualified hqualified
  constructor
  · rw [hsettings, hsettings']
    cases frame with
    | error e => simp only [Composed.map_error, Except.error.injEq, exists_eq', or_true]
    | ok frame =>
        simp only [Composed.map_ok, Except.ok.injEq, frame_inj, qualifiedName_inj, reduceCtorEq,
          exists_false, or_false]
  · intro policy text hpolicy htext
    cases frame with
    | error e =>
        rw [hsettings] at htext
        cases htext
    | ok frame =>
        refine ⟨frame.1, frame.2, ?_, ?_⟩
        · rw [hsettings, Composed.map_ok, Except.ok.injEq, hpolicy, hverbatim] at htext
          exact htext.symm
        · rw [hframe none, Composed.map_ok, hverbatim]
          rfl

/-- The SELECT of everything in a measurement. -/
def ofMeasurement (measurement : String) : StatementDraft :=
  .select ⟨[], some measurement, none, [], [], [], none, none, none, none, none⟩

/-- The keys that a qualified measurement has under two policies, and under one that is written
    in two ways. -/
theorem configured_policy_shows_in_keys :
    let d : StatementDraft := .showKeys .tag ⟨none, some "\"week\".\"cpu\"", none⟩
    let settings (policy : String) : Settings := ⟨none, some policy, .text⟩
    d.LeavesPolicyOpen "\"week\".\"cpu\"" ∧ Identifier.IsQualified "\"week\".\"cpu\"" ∧
      d.compile (settings "a") ≠ d.compile (settings "b") ∧
      d.compile (settings "a") = d.compile (settings "\"a\"") := by
  intro d settings
  have hopen : d.LeavesPolicyOpen "\"week\".\"cpu\"" := .showKeys .tag rfl rfl
  have hqualified : Identifier.IsQualified "\"week\".\"cpu\"" :=
    ⟨"week", "cpu", by decide, by decide, Or.inr rfl⟩
  have hiff (a b : String) : d.compile (settings a) = d.compile (settings b) ↔
      (some a).map Identifier.text = (some b).map Identifier.text ∨
        ∃ e, d.compile (settings a) = .error e := by
    refine (configured_policy_shows hopen hqualified ?_ ?_).1
    · rfl
    · rfl
  refine ⟨hopen, hqualified, ?_, (hiff "a" "\"a\"").mpr (Or.inl rfl)⟩
  intro hsame
  rcases (hiff "a" "b").mp hsame with htext | ⟨e, herror⟩
  · exact absurd htext (by decide)
  · cases herror

/-- A policy in the settings makes a third part of a name that has two. -/
theorem configured_policy_on_qualified :
    (ofMeasurement "week.cpu").LeavesPolicyOpen "week.cpu" ∧
      Identifier.IsQualified "week.cpu" ∧
      (ofMeasurement "week.cpu").compile ⟨none, none, .text⟩ = .ok "SELECT * FROM week.cpu" ∧
      (ofMeasurement "week.cpu").compile ⟨none, some "autogen", .text⟩ =
        .ok "SELECT * FROM \"autogen\".week.cpu" :=
  ⟨.select rfl rfl, ⟨"week", "cpu", by decide, by decide, Or.inl rfl⟩, rfl, rfl⟩

end StatementDraft
end SeriesQuery
