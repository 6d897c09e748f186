/-
Which fill options stand in a statement.

A fill option is looked at twice.  A text is read as an option once its blanks and its capitals
are gone; and when the statement is composed, a number is looked at again, whatever text it was
made from.  Both times the language is the same: the four keywords, and the numerals whose
nearest binary64 datum is a number.  It has no blanks and no capitals, so what was read once is
read again as itself.
-/
import SeriesQuery.Proofs.Floating.Printed
import SeriesQuery.Proofs.Numeral
import SeriesQuery.Proofs.Statement.Rendering
import SeriesQuery.Proofs.Text.Blank

namespace SeriesQuery

/-! ### The language -/

namespace Fill

/-- The option may stand in a statement: it is a keyword, or a numeral that is finite. -/
def Accepted : Fill → Prop
  | number text => Numeral.IsFiniteNumeral text.toList
  | null | none | previous | linear => True

/-- The texts of the options that are no numbers. -/
def keywords : List (List Char) :=
  ["null".toList, "none".toList, "previous".toList, "linear".toList]

/-- The text as it is compared with the options: no blanks around it, and no capitals. -/
def normal (s : String) : List Char :=
  (Text.trim s.toList).map Char.toLower

theorem not_isFiniteNumeral_of_keyword {s : List Char} (h : s ∈ keywords) :
    ¬ Numeral.IsFiniteNumeral s := by
  rw [← Numeral.isFiniteText_iff]
  revert s
  decide

/-! ### Composing -/

theorem compile_of_accepted {f : Fill} (h : f.Accepted) : f.compile = .ok f.text := by
  cases f with
  | number text => exact if_pos (Numeral.isFiniteText_iff.mpr h)
  | _ => rfl

theorem compile_of_not_accepted {f : Fill} (h : ¬ f.Accepted) :
    f.compile = .error (.invalidFill f.text) := by
  cases f with
  | number text => exact if_neg (mt Numeral.isFiniteText_iff.mp h)
  | _ => exact absurd trivial h

/-! ### Reading -/

/-- The option that a text in normal form is, if it is one. -/
def ofNormal? (name : List Char) : Option Fill :=
  if name = "null".toList then some null
  else if name = "none".toList then some none
  else if name = "previous".toList then some previous
  else if name = "linear".toList then some linear
  else if Numeral.isFiniteText name then some (number (String.ofList name))
  else .none

theorem ofText?_eq (s : String) :
    ofText? s = match ofNormal? (normal s) with
      | some f => .ok f
      | .none => .error (.invalidFill s) := by
  unfold ofText? ofNormal? normal
  dsimp only
  split_ifs <;> rfl

theorem ofNormal?_eq_some_iff {name : List Char} {f : Fill} :
    ofNormal? name = some f ↔ f.Accepted ∧ f.text.toList = name := by
  constructor
  · intro h
    unfold ofNormal? at h
    split_ifs at h with hnull hnone hprevious hlinear hfinite
    · cases h
      exact ⟨trivial, hnull.symm⟩
    · cases h
      exact ⟨trivial, hnone.symm⟩
    · cases h
      exact ⟨trivial, hprevious.symm⟩
    · cases h
      exact ⟨trivial, hlinear.symm⟩
    · cases h
      have htext : (String.ofList name).toList = name := String.toList_ofList
      refine ⟨?_, htext⟩
      show Numeral.IsFiniteNumeral (String.ofList name).toList
      rw [htext]
      exact Numeral.isFiniteText_iff.mp hfinite
  · rintro ⟨haccepted, rfl⟩
    cases f with
    | number text =>
        have hkeyword : text.toList ∉ keywords := fun h =>
          not_isFiniteNumeral_of_keyword h haccepted
        simp only [keywords, List.mem_cons, List.not_mem_nil, or_false, not_or] at hkeyword
        obtain ⟨hnull, hnone, hprevious, hlinear⟩ := hkeyword
        show ofNormal? text.toList = _
        unfold ofNormal?
        rw [if_neg hnull, if_neg hnone, if_neg hprevious, if_neg hlinear,
          if_pos (Numeral.isFiniteText_iff.mpr haccepted), String.ofList_toList]
    | null | none | previous | linear => decide

/-- **A text is read as the option that its normal form is.** -/
theorem ofText?_eq_ok_iff {s : String} {f : Fill} :
    ofText? s = .ok f ↔ f.Accepted ∧ f.text.toList = normal s := by
  rw [← ofNormal?_eq_some_iff, ofText?_eq]
  cases ofNormal? (normal s) <;> simp

/-- A text that is no option is reported as it was given. -/
theorem ofText?_eq_error {s : String} {e : ComposeError} (h : ofText? s = .error e) :
    e = .invalidFill s := by
  rw [ofText?_eq] at h
  cases hname : ofNormal? (normal s) with
  | none =>
      rw [hname] at h
      cases h
      rfl
  | some f =>
      rw [hname] at h
      cases h

theorem isBlank_of_accepted {f : Fill} (h : f.Accepted) :
    ∀ c ∈ f.text.toList, Text.isBlank c = false := by
  have hsolid {s : List Char} (h : (s.all fun c => !Text.isBlank c) = true) :
      ∀ c ∈ s, Text.isBlank c = false := by simpa using h
  cases f with
  | number text =>
      intro c hc
      rcases Numeral.isMark_of_mem (Numeral.isFiniteText_iff.mpr h) c hc with hdigit | hmark
      · exact Text.isBlank_of_isDigit hdigit
      · exact hsolid rfl c hmark
  | null | none | previous | linear => exact hsolid rfl

theorem toLower_toLower (c : Char) : c.toLower.toLower = c.toLower := by
  unfold Char.toLower
  grind

/-- What was read is in normal form already. -/
theorem normal_text {s : String} {f : Fill} (h : ofText? s = .ok f) :
    normal f.text = f.text.toList := by
  obtain ⟨haccepted, htext⟩ := ofText?_eq_ok_iff.mp h
  unfold normal
  rw [Text.trim_of_not_blank (isBlank_of_accepted haccepted), htext]
  unfold normal
  rw [List.map_map]
  exact List.map_congr_left fun c _ => toLower_toLower c

/-- **An option that was read is read again as itself.** -/
theorem ofText?_text {s : String} {f : Fill} (h : ofText? s = .ok f) : ofText? f.text = .ok f :=
  ofText?_eq_ok_iff.mpr ⟨(ofText?_eq_ok_iff.mp h).1, (normal_text h).symm⟩

theorem exists_ofText?_iff {s : String} :
    (∃ f, ofText? s = .ok f) ↔ normal s ∈ keywords ∨ Numeral.IsFiniteNumeral (normal s) := by
  constructor
  · rintro ⟨f, h⟩
    obtain ⟨haccepted, htext⟩ := ofText?_eq_ok_iff.mp h
    rw [← htext]
    cases f with
    | number text => exact Or.inr haccepted
    | null | none | previous | linear => exact Or.inl (by decide)
  · rintro (hkeyword | hnumeral)
    · simp only [keywords, List.mem_cons, List.not_mem_nil, or_false] at hkeyword
      rcases hkeyword with h | h | h | h
      · exact ⟨null, ofText?_eq_ok_iff.mpr ⟨trivial, h.symm⟩⟩
      · exact ⟨none, ofText?_eq_ok_iff.mpr ⟨trivial, h.symm⟩⟩
      · exact ⟨previous, ofText?_eq_ok_iff.mpr ⟨trivial, h.symm⟩⟩
      · exact ⟨linear, ofText?_eq_ok_iff.mpr ⟨trivial, h.symm⟩⟩
    · have htext : (String.ofList (normal s)).toList = normal s := String.toList_ofList
      have haccepted : Accepted (number (String.ofList (normal s))) := by
        show Numeral.IsFiniteNumeral (String.ofList (normal s)).toList
        rwa [htext]
      exact ⟨_, ofText?_eq_ok_iff.mpr ⟨haccepted, htext⟩⟩

end Fill

/-! ### The statement -/

namespace Select

theorem Clauses.text_withFill {c : Clauses} (hc : c.fill = none) (x : String) :
    { c with fill := some x }.text = c.text ++ " fill(" ++ x ++ ")" := by
  simp only [text_eq, selecting, selection, source, further, furtherPhrases,
    Phrases.trailing_append, trailing_fill, hc]
  simp only [fillSection, String.append_empty, String.append_assoc]

/-- The fill option is composed last, and stands behind everything else. -/
theorem compile_withFill (q : Select Fragment) (f : Fill) :
    (Statement.select { q with fill := some f }).compile =
      (Statement.select { q with fill := none }).compile >>= fun t =>
        (fun x => t ++ " fill(" ++ x ++ ")") <$> f.compile := by
  have hclauses : { q with fill := some f }.clauses = { q with fill := none }.clauses >>= fun c =>
      (fun x => { c with fill := some x }) <$> f.compile := by
    obtain ⟨fields, measurement, policy, conditions, groupBy, orderBy, limit, offset, seriesLimit,
      seriesOffset, fill⟩ := q
    cases measurement with
    | none => rfl
    | some m =>
        simp only [clauses, Option.mapM_some, Option.mapM_none, map_eq_pure_bind, bind_assoc,
          pure_bind]
  rw [compile_eq_clauses, compile_eq_clauses, hclauses]
  cases hc : { q with fill := none }.clauses with
  | error e => rfl
  | ok c =>
      have hfill : c.fill = none := by
        have hrel := (clauses_eq_ok_iff.mp hc).fill
        generalize c.fill = fill at hrel
        cases hrel
        rfl
      rw [Composed.ok_bind, Composed.map_ok, Composed.ok_bind]
      cases f.compile with
      | error e => rfl
      | ok x => exact congrArg Except.ok (Clauses.text_withFill hfill x)

end Select

/-! ### Both looks at an option -/

/--
**The same options are accepted when they are read and when they are composed.**  A text is read
exactly when its normal form is a keyword or a finite numeral; what it is read as is written as
that form, composes, and is read again as itself; any other text is reported as it was given.  A
SELECT that composes without a fill option composes with every accepted one, and has it at its
end, between parentheses, as it is; with any other option it fails, and the error has the text of
the option.  Whole numbers of 64 bits make accepted options, and floating-point data do exactly
when they are numbers.
-/
theorem fill_accepted_alike :
    (∀ s : String,
      ((∃ f, Fill.ofText? s = .ok f) ↔
        Fill.normal s ∈ Fill.keywords ∨ Numeral.IsFiniteNumeral (Fill.normal s)) ∧
      (∀ f, Fill.ofText? s = .ok f →
        f.text.toList = Fill.normal s ∧ f.compile = .ok f.text ∧ Fill.ofText? f.text = .ok f) ∧
      ∀ e, Fill.ofText? s = .error e → e = .invalidFill s) ∧
    (∀ (q : Select Fragment) (t : String),
      (Statement.select { q with fill := none }).compile = .ok t → ∀ f : Fill,
        (f.Accepted → (Statement.select { q with fill := some f }).compile =
          .ok (t ++ " fill(" ++ f.text ++ ")")) ∧
        (¬ f.Accepted → (Statement.select { q with fill := some f }).compile =
          .error (.invalidFill f.text))) ∧
    (∀ n : Int, n.natAbs < UInt64.size → (Fill.number (toString n)).Accepted) ∧
    ∀ (format : Format) (x : Floating), x.Fits format →
      ((Fill.number (x.text format)).Accepted ↔ x.isFinite = true) := by
  refine ⟨?_, ?_, ?_, ?_⟩
  · intro s
    refine ⟨Fill.exists_ofText?_iff, ?_, fun e => Fill.ofText?_eq_error⟩
    intro f hf
    obtain ⟨haccepted, htext⟩ := Fill.ofText?_eq_ok_iff.mp hf
    exact ⟨htext, Fill.compile_of_accepted haccepted, Fill.ofText?_text hf⟩
  · intro q t hq f
    constructor
    · intro haccepted
      rw [Select.compile_withFill, hq, Fill.compile_of_accepted haccepted]
      rfl
    · intro hrefused
      rw [Select.compile_withFill, hq, Fill.compile_of_not_accepted hrefused]
      rfl
  · intro n hn
    exact Numeral.isFiniteText_iff.mp (Numeral.isFiniteText_int hn)
  · intro format x hx
    show Numeral.IsFiniteNumeral (x.text format).toList ↔ _
    rw [← Numeral.isFiniteText_iff, Numeral.isFiniteText_floating hx]

/-- A power of ten is read and composes; what is not a number is refused by its text. -/
theorem power_of_ten_fills :
    let q := (Select.ofFields [.name "v"]).apply (.measurement (.name "cpu"))
    Fill.ofText? "1e3" = .ok (.number "1e3") ∧
      (Statement.select { q with fill := some (.number "1e3") }).compile =
        .ok "SELECT \"v\" FROM \"cpu\" fill(1e3)" ∧
      (Statement.select { q with fill := some (.number (Floating.nan.text .binary64)) }).compile =
        .error (.invalidFill "NaN") := by
  intro q
  have hq : (Statement.select { q with fill := none }).compile =
      .ok "SELECT \"v\" FROM \"cpu\"" := rfl
  have hread : Fill.ofText? " 1E3 " = .ok (.number "1e3") := rfl
  obtain ⟨htext, hselect, -, hfloating⟩ := fill_accepted_alike
  obtain ⟨-, hagain, -⟩ := htext " 1E3 "
  have haccepted : (Fill.number "1e3").Accepted := (Fill.ofText?_eq_ok_iff.mp hread).1
  have hrefused : ¬ (Fill.number (Floating.nan.text .binary64)).Accepted := by
    rw [hfloating .binary64 .nan trivial]
    decide
  refine ⟨(hagain _ hread).2.2, ?_, (hselect q _ hq _).2 hrefused⟩
  exact ((hselect q _ hq _).1 haccepted).trans (by decide)

end SeriesQuery
