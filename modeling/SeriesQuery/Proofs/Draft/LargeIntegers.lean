/-
Whole numbers in fill options and terms.

A whole number in a fill option or a term of a file is a number of 64 bits with a sign, or else a
float.  Between the two there is no number without a sign, which values have.  So from 2^63 on a
number becomes a float and is written as the float is, while a program that composes the same
statement has the number as it is.
-/
import SeriesQuery.Proofs.Draft.Fields
import SeriesQuery.Proofs.Draft.FillOption
import SeriesQuery.Proofs.Floating.WholeNumbers
import SeriesQuery.Proofs.Json.Integers

namespace SeriesQuery

/-! ### Drafts -/

/-- What is written for a whole number in a fill option or a term. -/
def integerText (n : Int) : String :=
  if Document.isSigned64 n then toString n else (Format.binary64.ofInt n).text .binary64

theorem FillDraft.exists_fill_integer (n : Int) :
    ∃ f, ofDocument? (.integer n) = some f ∧ f.fill = .ok (.number (integerText n)) := by
  refine ⟨_, rfl, ?_⟩
  unfold integerText
  split <;> rfl

theorem TermDraft.exists_text_integer (n : Int) :
    ∃ t, ofDocument? (.integer n) = some t ∧ t.text = .ok (integerText n) := by
  refine ⟨_, by rw [ofDocument?], ?_⟩
  unfold integerText
  split <;> rfl

theorem isSigned64_natCast {n : Nat} : Document.isSigned64 n = true ↔ n < 2 ^ 63 := by
  simp only [Document.isSigned64, Bool.and_eq_true, decide_eq_true_eq]
  omega

/-- The number may stand in a statement either way. -/
theorem accepted_integerText {n : Nat} (hn : n < UInt64.size) :
    (Fill.number (integerText n)).Accepted := by
  refine Numeral.isFiniteText_iff.mp ?_
  unfold integerText
  split
  · exact Numeral.isFiniteText_int hn
  · exact (Numeral.isFiniteText_floating (Format.fits_ofInt .binary64 n)).mpr
      (Format.isFinite_ofInt hn)

/-- What stands for a whole number of 64 bits is a whole number with these properties. -/
structure StandsFor (n r : Nat) : Prop where
  /-- Numbers that leave room for a sign are written as they are. -/
  of_lt : n < 2 ^ 63 → r = n
  /-- The others are written as the float is. -/
  text_ofInt : 2 ^ 63 ≤ n → (Format.binary64.ofInt n).text .binary64 = toString r
  /-- It is the same float. -/
  ofInt_eq : Format.binary64.ofInt r = Format.binary64.ofInt n
  /-- Of the whole numbers that are the same float, none has more zeros at its end. -/
  zeros : 2 ^ 63 ≤ n → ∀ s j : Nat, 0 < s →
    Format.binary64.ofInt s = Format.binary64.ofInt n → 10 ^ j ∣ s → 10 ^ j ∣ r
  /-- So it has three. -/
  thousand_dvd : 2 ^ 63 ≤ n → 1000 ∣ r
  /-- Numbers with four are written as they are. -/
  of_dvd : 10000 ∣ n → r = n

theorem exists_standsFor {n : Nat} (hn : n < UInt64.size) :
    ∃ r, StandsFor n r ∧ integerText n = toString r := by
  rcases Nat.lt_or_ge n (2 ^ 63) with hsmall | hlarge
  · have htext : integerText n = toString n := if_pos (isSigned64_natCast.mpr hsmall)
    exact ⟨n, ⟨fun _ => rfl, fun h => absurd hsmall (Nat.not_lt.mpr h), rfl,
      fun h => absurd hsmall (Nat.not_lt.mpr h), fun h => absurd hsmall (Nat.not_lt.mpr h),
      fun _ => rfl⟩, htext⟩
  · obtain ⟨r, htext, hsame, hzeros, hthousand, hexact⟩ := Format.text_ofInt_large hlarge hn
    have hfloat : integerText n = (Format.binary64.ofInt n).text .binary64 :=
      if_neg (mt isSigned64_natCast.mp (Nat.not_lt.mpr hlarge))
    exact ⟨r, ⟨fun h => absurd h (Nat.not_lt.mpr hlarge), fun _ => htext, hsame, fun _ => hzeros,
      fun _ => hthousand, hexact⟩, hfloat.trans htext⟩

/-! ### Files and programs -/

/-- A term of a file is a whole number as it is written. -/
theorem Json.isTerm_integerWord {n : Nat} (hn : n < UInt64.size) (depth : Nat) :
    IsTerm depth (.word (integerWord n)) (integerText n) := by
  obtain ⟨t, ht, htext⟩ := TermDraft.exists_text_integer n
  exact ⟨_, t, read_integerWord (by omega) (by exact_mod_cast hn) depth, ht, htext⟩

/-- A fill option of a file is a whole number as it is written. -/
theorem Json.fillsWith_integerWord {n : Nat} (hn : n < UInt64.size) :
    FillsWith (.word (integerWord n)) (integerText n) := by
  obtain ⟨f, hd, hf⟩ := FillDraft.exists_fill_integer n
  exact fillsWith_of_read (read_integerWord (by omega) (by exact_mod_cast hn) _) hd hf
    (accepted_integerText hn)

/-- A program that selects the function of a field and a number has the number as it is. -/
theorem Select.compile_numbered (f : NumberedFunction) (field n measurement : String) :
    (Statement.select ((ofFields [(f.of (.name field) n).fragment]).apply
      (.measurement (.name measurement)))).compile =
        .ok (fieldsText none measurement
          [Fragment.callText f.name [Identifier.text field, n] none]) := by
  have hcall : Fragment.compileAll [(f.of (.name field) n).fragment] =
      .ok [Fragment.callText f.name [Identifier.text field, n] none] := rfl
  exact compile_fields none measurement hcall
    ⟨_, List.mem_singleton_self _, Fragment.callText_ne_empty _ _ _⟩

/-- **Whole numbers of 64 bits in fill options and terms.**  Each is written as one whole number
    `r` wherever it stands in a file: as the fill option of any SELECT that composes without one,
    as a term at any depth, among the fields of a SELECT and among the arguments of a call.  A
    program that composes the same has the number itself.  So the two agree exactly when `r` is
    the number: always below 2^63, and from there on only if the number is what its float is
    written as, for which it must end in three zeros, while four are enough. -/
theorem integers_rounded_in_fills_and_terms {n : Nat} (hn : n < UInt64.size) :
    ∃ r, StandsFor n r ∧
      Json.FillsWith (.word (Json.integerWord n)) (toString r) ∧
      (∀ depth, Json.IsTerm depth (.word (Json.integerWord n)) (toString r)) ∧
      Json.IsField (.word (Json.integerWord n)) (toString r) ∧
      Json.IsArgument (.word (Json.integerWord n)) (toString r) ∧
      Select.FillsWith (.number (toString n)) (toString n) ∧
      (∀ (f : NumberedFunction) (field measurement : String),
        (Statement.select ((Select.ofFields [(f.of (.name field) (toString n)).fragment]).apply
          (.measurement (.name measurement)))).compile =
            .ok (Select.fieldsText none measurement
              [Fragment.callText f.name [Identifier.text field, toString n] none])) ∧
      (Json.FillsWith (.word (Json.integerWord n)) (toString n) ↔ r = n) ∧
      (Json.IsField (.word (Json.integerWord n)) (toString n) ↔ r = n) := by
  obtain ⟨r, hr, htext⟩ := exists_standsFor hn
  have hterm := Json.isTerm_integerWord hn
  have hfill := Json.fillsWith_integerWord hn
  rw [htext] at hterm hfill
  have hne : toString r ≠ "" := by
    intro hempty
    have hlist := congrArg String.toList hempty
    simp at hlist
  have hfield := Json.isField_of_isTerm (hterm _) hne
  have hsame : toString n = toString r ↔ r = n := toString_inj.trans eq_comm
  have hnumber : (Fill.number (toString n)).Accepted :=
    Numeral.isFiniteText_iff.mp (@Numeral.isFiniteText_int (n : Int) hn)
  refine ⟨r, hr, hfill, hterm, hfield, Json.isArgument_of_isTerm (hterm _), ?_, ?_, ?_, ?_⟩
  · exact Select.fillsWith_text hnumber
  · intro f field measurement
    exact Select.compile_numbered f field (toString n) measurement
  · rw [← hsame]
    exact ⟨fun h => h.unique hfill, fun h => h ▸ hfill⟩
  · rw [← hsame]
    exact ⟨fun h => h.unique hfield, fun h => h ▸ hfield⟩

/-- The largest number is written as another; one that ends in four zeros is exact. -/
theorem rounded_fill_and_exact_argument :
    let fill := "\x7b\"statement\":[\x7b\"kind\":\"select\",\"from\":\"cpu\"," ++
      "\"fill\":18446744073709551615\x7d]\x7d"
    let call := "\x7b\"statement\":[\x7b\"kind\":\"select\",\"fields\":[\x7b" ++
      "\"function\":\"top\",\"args\":[\"value\",9223372036854780000]\x7d]," ++
      "\"from\":\"cpu\"\x7d]\x7d"
    Batch.ofJson fill >>= Batch.compile Settings.empty =
        .ok ["SELECT * FROM \"cpu\" fill(18446744073709552000)"] ∧
      Batch.ofJson call >>= Batch.compile Settings.empty =
        .ok ["SELECT TOP(\"value\", 9223372036854780000) FROM \"cpu\""] := by
  intro fill call
  obtain ⟨r, hr, hfill, -⟩ := @integers_rounded_in_fills_and_terms 18446744073709551615 (by decide)
  obtain ⟨s, hs, -, -, -, hargument, -⟩ :=
    @integers_rounded_in_fills_and_terms 9223372036854780000 (by decide)
  obtain rfl : s = 9223372036854780000 := hs.of_dvd (by decide)
  have hrounded : (Format.binary64.ofInt 18446744073709551615).text .binary64 =
      "18446744073709552000" := by decide +kernel
  have htext : toString r = "18446744073709552000" :=
    (hr.text_ofInt (by decide)).symm.trans hrounded
  have hselect : Json.draft? (.table ([(Json.quotedOf "kind", Json.textTree "select"),
      (Json.quotedOf "from", Json.textTree "cpu")] ++ [])) =
        some (.select (.everything "cpu" [])) := rfl
  have hkeys : ∀ m ∈ [(Json.quotedOf "kind", Json.textTree "select"),
      (Json.quotedOf "from", Json.textTree "cpu")] ++ [], m.1.read ≠ some "fill" := by decide
  let form : Json.BatchForm := .keyed (Json.quotedOf "statement") (Json.read_quotedOf _)
  constructor
  · rw [htext] at hfill
    exact hfill form _ [] _ _ Settings.empty "SELECT * FROM \"cpu\"" fill
      (Json.read_quotedOf "fill") hkeys hselect rfl (Json.Tree.writtenBy_compact _)
  · exact hargument "top" none [Json.textTree "value"] [] _ _
      (.cons (Json.isTerm_textTree "value") .nil) .nil form Settings.empty "cpu" [] [] [] [] call
      .nil .nil (Json.Tree.writtenBy_compact _)

/-- A file and a program with the largest number. -/
theorem largest_fill_rounded :
    let file := "\x7b\"statement\":[\x7b\"kind\":\"select\",\"from\":\"cpu\"," ++
      "\"fill\":18446744073709551615\x7d]\x7d"
    let select := (Select.ofFields []).apply (.measurement (.name "cpu"))
    let filled := select.apply (.fill (.number (toString 18446744073709551615)))
    Batch.ofJson file >>= Batch.compile Settings.empty =
        .ok ["SELECT * FROM \"cpu\" fill(18446744073709552000)"] ∧
      (Statement.select filled).compile =
        .ok "SELECT * FROM \"cpu\" fill(18446744073709551615)" := by
  decide +kernel

end SeriesQuery
