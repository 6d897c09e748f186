/-
Fragments in fragments.

A frame is a fragment with one of its parts taken out.  It compiles what is put into it once,
and looks at nothing but what that compiles to.  So two fragments that compile alike can stand
for each other in every frame, and, frame by frame, at any depth.  A fragment that compiles can
thus be replaced by its own text; whatever fails elsewhere in the tree goes on failing in the
same way.
-/
import SeriesQuery.Proofs.Fragment.Checks
import SeriesQuery.Proofs.Statement.Parts

namespace SeriesQuery

/-! ### Frames -/

namespace Fragment

/-- A fragment without one of its parts. -/
inductive Frame where
  | callArgument (function : String) (before after : List Fragment) (aliasName : Option Fragment)
  | callAlias (function : String) (args : List Fragment)
  | orderedTerm (direction : SortDirection)
  | selectField (s : Select Fragment) (before after : List Fragment)
  | selectMeasurement (s : Select Fragment)
  | selectPolicy (s : Select Fragment)
  | selectGroupBy (s : Select Fragment) (before after : List Fragment)
  | selectOrderBy (s : Select Fragment) (before after : List Fragment)
  | deleteMeasurement (s : Delete Fragment)
  | objectName (action : ObjectAction)
  | policyName (p : RetentionPolicy Fragment)
  | policyDatabase (p : RetentionPolicy Fragment)
  | droppedName (database : Fragment)
  | droppedDatabase (policy : Fragment)
  | listDatabase (what : Listing)
  | keysDatabase (kind : KeyKind) (s : KeysScope Fragment)
  | keysMeasurement (kind : KeyKind) (s : KeysScope Fragment)
  | keysPolicy (kind : KeyKind) (s : KeysScope Fragment)

namespace Frame

/-- The fragment with a part where one was taken out. -/
def fill (part : Fragment) : Frame → Fragment
  | callArgument function before after aliasName =>
    .call function (before ++ part :: after) aliasName
  | callAlias function args => .call function args (some part)
  | orderedTerm direction => .ordered part direction
  | selectField s before after =>
    .statement (.select { s with fields := before ++ part :: after })
  | selectMeasurement s => .statement (.select { s with measurement := some part })
  | selectPolicy s => .statement (.select { s with retentionPolicy := some part })
  | selectGroupBy s before after =>
    .statement (.select { s with groupBy := before ++ part :: after })
  | selectOrderBy s before after =>
    .statement (.select { s with orderBy := before ++ part :: after })
  | deleteMeasurement s => .statement (.delete { s with measurement := some part })
  | objectName action => .statement (.object action part)
  | policyName p => .statement (.retentionPolicy { p with name := part })
  | policyDatabase p => .statement (.retentionPolicy { p with database := part })
  | droppedName database => .statement (.dropRetentionPolicy part database)
  | droppedDatabase policy => .statement (.dropRetentionPolicy policy part)
  | listDatabase what => .statement (.list what (some part))
  | keysDatabase kind s => .statement (.showKeys kind { s with database := some part })
  | keysMeasurement kind s => .statement (.showKeys kind { s with measurement := some part })
  | keysPolicy kind s => .statement (.showKeys kind { s with retentionPolicy := some part })

/-- The part in the last of the frames, and each frame in the one before it. -/
def fillAll (frames : List Frame) (part : Fragment) : Fragment :=
  frames.foldr (fun frame inner => frame.fill inner) part

theorem fillAll_cons (frame : Frame) (frames : List Frame) (part : Fragment) :
    fillAll (frame :: frames) part = frame.fill (fillAll frames part) := rfl

end Frame

/-! ### Every part has a frame -/

/-- The fragments that a statement is put together from. -/
def statementParts : Statement Fragment → List Fragment
  | .select s =>
    s.measurement.toList ++ s.retentionPolicy.toList ++ s.fields ++ s.groupBy ++ s.orderBy
  | .delete s => s.measurement.toList
  | .object _ object => [object]
  | .retentionPolicy p => [p.name, p.database]
  | .dropRetentionPolicy policy database => [policy, database]
  | .list _ database => database.toList
  | .showDatabases => []
  | .showKeys _ s => s.database.toList ++ s.measurement.toList ++ s.retentionPolicy.toList

/-- The fragments that a fragment is put together from. -/
def parts : Fragment → List Fragment
  | call _ args aliasName => args ++ aliasName.toList
  | ordered term _ => [term]
  | statement s => statementParts s
  | name _ | window _ | raw _ | quoted _ | conjunction _ | value _ | condition _ => []

theorem mem_parts_fill (frame : Frame) (g : Fragment) : g ∈ (frame.fill g).parts := by
  cases frame <;> simp [Frame.fill, parts, statementParts]

theorem exists_frame_of_mem_statementParts {g : Fragment} {s : Statement Fragment}
    (h : g ∈ statementParts s) : ∃ frame : Frame, frame.fill g = .statement s := by
  cases s with
  | select s =>
      simp only [statementParts, List.mem_append, Option.mem_toList] at h
      rcases h with (((h | h) | h) | h) | h
      · exact ⟨.selectMeasurement s, by simp only [Frame.fill, ← h]⟩
      · exact ⟨.selectPolicy s, by simp only [Frame.fill, ← h]⟩
      · obtain ⟨before, after, h⟩ := List.append_of_mem h
        exact ⟨.selectField s before after, by simp only [Frame.fill, ← h]⟩
      · obtain ⟨before, after, h⟩ := List.append_of_mem h
        exact ⟨.selectGroupBy s before after, by simp only [Frame.fill, ← h]⟩
      · obtain ⟨before, after, h⟩ := List.append_of_mem h
        exact ⟨.selectOrderBy s before after, by simp only [Frame.fill, ← h]⟩
  | delete s =>
      have h : s.measurement = some g := Option.mem_toList.mp h
      exact ⟨.deleteMeasurement s, by simp only [Frame.fill, ← h]⟩
  | object action object =>
      cases List.mem_singleton.mp h
      exact ⟨.objectName action, rfl⟩
  | retentionPolicy p =>
      simp only [statementParts, List.mem_cons, List.not_mem_nil, or_false] at h
      rcases h with h | h
      · exact ⟨.policyName p, by simp only [Frame.fill, h]⟩
      · exact ⟨.policyDatabase p, by simp only [Frame.fill, h]⟩
  | dropRetentionPolicy policy database =>
      simp only [statementParts, List.mem_cons, List.not_mem_nil, or_false] at h
      rcases h with rfl | rfl
      · exact ⟨.droppedName database, rfl⟩
      · exact ⟨.droppedDatabase policy, rfl⟩
  | list what database =>
      have h : database = some g := Option.mem_toList.mp h
      exact ⟨.listDatabase what, by simp only [Frame.fill, ← h]⟩
  | showDatabases => cases h
  | showKeys kind s =>
      simp only [statementParts, List.mem_append, Option.mem_toList] at h
      rcases h with (h | h) | h
      · exact ⟨.keysDatabase kind s, by simp only [Frame.fill, ← h]⟩
      · exact ⟨.keysMeasurement kind s, by simp only [Frame.fill, ← h]⟩
      · exact ⟨.keysPolicy kind s, by simp only [Frame.fill, ← h]⟩

/-- The parts of a fragment are what its frames leave out. -/
theorem mem_parts_iff {f g : Fragment} : g ∈ f.parts ↔ ∃ frame : Frame, frame.fill g = f := by
  constructor
  · intro h
    cases f with
    | call function args aliasName =>
        rcases List.mem_append.mp h with h | h
        · obtain ⟨before, after, rfl⟩ := List.append_of_mem h
          exact ⟨.callArgument function before after aliasName, rfl⟩
        · have h : aliasName = some g := Option.mem_toList.mp h
          exact ⟨.callAlias function args, by simp only [Frame.fill, ← h]⟩
    | ordered term direction =>
        cases List.mem_singleton.mp h
        exact ⟨.orderedTerm direction, rfl⟩
    | statement s => exact exists_frame_of_mem_statementParts h
    | _ => cases h
  · rintro ⟨frame, rfl⟩
    exact mem_parts_fill frame g

/-- The fragment stands in the other one, at any depth. -/
inductive Within (g : Fragment) : Fragment → Prop
  | whole : Within g g
  | part {inner f : Fragment} (hpart : inner ∈ f.parts) (h : Within g inner) : Within g f

/-- What stands in a fragment is what frames, one in another, leave out. -/
theorem within_iff {f g : Fragment} :
    Within g f ↔ ∃ frames : List Frame, Frame.fillAll frames g = f := by
  constructor
  · intro h
    induction h with
    | whole => exact ⟨[], rfl⟩
    | part hpart _ ih =>
        obtain ⟨frame, rfl⟩ := mem_parts_iff.mp hpart
        obtain ⟨frames, rfl⟩ := ih
        exact ⟨frame :: frames, rfl⟩
  · rintro ⟨frames, rfl⟩
    induction frames with
    | nil => exact .whole
    | cons frame frames ih => exact .part (mem_parts_fill frame _) ih

/-! ### What compiles alike -/

variable {f g : Fragment}

theorem compileAll_congr (h : f.compile = g.compile) (before after : List Fragment) :
    compileAll (before ++ f :: after) = compileAll (before ++ g :: after) := by
  induction before with
  | nil =>
      show compileAll (f :: after) = compileAll (g :: after)
      unfold compileAll
      rw [h]
  | cons x before ih =>
      show compileAll (x :: (before ++ f :: after)) = compileAll (x :: (before ++ g :: after))
      unfold compileAll
      rw [ih]

theorem compileOption_congr (h : f.compile = g.compile) :
    compileOption (some f) = compileOption (some g) := by
  unfold compileOption
  rw [h]

theorem compile_select_congr {s t : Select Fragment} (h : s.clauses = t.clauses) :
    (Fragment.statement (.select s)).compile = (Fragment.statement (.select t)).compile := by
  show (Statement.select s).compile = (Statement.select t).compile
  rw [Select.compile_eq_clauses, Select.compile_eq_clauses, h]

/-- Two fragments that compile alike compile alike in every frame. -/
theorem compile_fill_congr (h : f.compile = g.compile) (frame : Frame) :
    (frame.fill f).compile = (frame.fill g).compile := by
  cases frame with
  | callArgument function before after aliasName =>
      simp only [Frame.fill, compile, compileAll_congr h]
  | callAlias function args => simp only [Frame.fill, compile, compileOption_congr h]
  | orderedTerm direction => simp only [Frame.fill, compile, h]
  | selectField s before after =>
      refine compile_select_congr ?_
      simp only [Select.clauses, compileAll_congr h]
  | selectMeasurement s =>
      refine compile_select_congr ?_
      simp only [Select.clauses, h]
  | selectPolicy s =>
      refine compile_select_congr ?_
      simp only [Select.clauses, compileOption_congr h]
  | selectGroupBy s before after =>
      refine compile_select_congr ?_
      simp only [Select.clauses, compileAll_congr h]
  | selectOrderBy s before after =>
      refine compile_select_congr ?_
      simp only [Select.clauses, compileAll_congr h]
  | deleteMeasurement s =>
      simp only [Frame.fill, compile, compileStatement, compileDelete, h]
  | objectName action => simp only [Frame.fill, compile, compileStatement, h]
  | policyName p =>
      simp only [Frame.fill, compile, compileStatement, compileRetentionPolicy, h]
  | policyDatabase p =>
      simp only [Frame.fill, compile, compileStatement, compileRetentionPolicy, h]
  | droppedName database => simp only [Frame.fill, compile, compileStatement, h]
  | droppedDatabase policy => simp only [Frame.fill, compile, compileStatement, h]
  | listDatabase what =>
      simp only [Frame.fill, compile, compileStatement, compileOption_congr h]
  | keysDatabase kind s =>
      simp only [Frame.fill, compile, compileStatement, compileKeys, compileOption_congr h]
  | keysMeasurement kind s =>
      simp only [Frame.fill, compile, compileStatement, compileKeys, compileOption_congr h]
  | keysPolicy kind s =>
      simp only [Frame.fill, compile, compileStatement, compileKeys, compileOption_congr h]

/-- Two fragments that compile alike compile alike at any depth. -/
theorem compile_fillAll_congr (h : f.compile = g.compile) (frames : List Frame) :
    (Frame.fillAll frames f).compile = (Frame.fillAll frames g).compile := by
  induction frames with
  | nil => exact h
  | cons frame frames ih =>
      rw [Frame.fillAll_cons, Frame.fillAll_cons]
      exact compile_fill_congr ih frame

/--
**The first check that fails decides.**  A tree of fragments compiles exactly when each of its
checks passes; otherwise it fails just as the first one that does not pass, in the order in
which the checks of a fragment are listed.  And whatever compiles, at any depth, can be replaced
by its own text without a change to what the whole compiles to, or to how it fails.
-/
theorem compile_first_failure (f : Fragment) :
    ((∃ text, f.compile = .ok text) ↔ ∀ c ∈ f.checks, c.failure = none) ∧
    (∀ e, f.compile = .error e ↔ ∃ before c after, f.checks = before ++ c :: after ∧
      c.failure = some e ∧ ∀ b ∈ before, b.failure = none) ∧
    (∀ (frames : List Frame) (g : Fragment) (text : String), Frame.fillAll frames g = f →
      g.compile = .ok text → (Frame.fillAll frames (.raw text)).compile = f.compile) := by
  refine ⟨f.performs.exists_ok_iff, f.performs.error_iff, ?_⟩
  rintro frames g text rfl htext
  have hraw : (raw text).compile = g.compile := by
    rw [htext]
    unfold compile
    rfl
  exact compile_fillAll_congr hraw frames

/-- A SELECT with a value too few. -/
def lackingValue : Fragment :=
  .statement (.select ⟨[], some (.name "m"), none, .only ⟨"x = ? ?", [.int 1]⟩, [], [],
    none, none, none, none, none⟩)

/-- The frames around a field in a call, beside a SELECT with a value too few, under an alias
    that lacks a measurement. -/
def faultyFrames : List Frame :=
  [.callArgument "f" [] [lackingValue] (some (.statement (.delete Delete.empty))),
    .orderedTerm .asc]

/-- The condition comes before the alias, and the field can stand as its text. -/
theorem compile_first_failure_of_two :
    (Frame.fillAll faultyFrames (.name "a")).compile = .error (.placeholderMismatch 2 1) ∧
    (name "a").compile = .ok "\"a\"" ∧
    (Frame.fillAll faultyFrames (.raw "\"a\"")).compile =
      (Frame.fillAll faultyFrames (.name "a")).compile := by
  obtain ⟨-, herror, hraw⟩ := compile_first_failure (Frame.fillAll faultyFrames (.name "a"))
  have hfield : (name "a").compile = .ok "\"a\"" := rfl
  refine ⟨?_, hfield, hraw faultyFrames (.name "a") _ rfl hfield⟩
  refine (herror _).mpr ⟨[.measurement .select true], .condition ⟨"x = ? ?", [.int 1]⟩,
    [.measurement .delete false], rfl, by decide, ?_⟩
  intro b hb
  cases List.mem_singleton.mp hb
  rfl

end Fragment
end SeriesQuery
