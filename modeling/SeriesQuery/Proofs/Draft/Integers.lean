/-
Whole numbers as values.

A whole number in a file is a signed number of 64 bits, or failing that one without a sign.  Between
them the two hold every number from -2^63 up to 2^64, so no such number is ever taken for a float,
and it stands in its condition with the digits it has in the file.
-/
import SeriesQuery.Proofs.Draft.OneCondition
import SeriesQuery.Proofs.Json.Integers

namespace SeriesQuery

/-! ### Drafts -/

namespace ValueDraft

/-- The draft of a whole number that 64 bits hold. -/
def ofInteger (n : Int) : ValueDraft :=
  if Document.isSigned64 n then int n else uint n.toNat

theorem nonneg_of_not_isSigned64 {n : Int} (hlow : -0x8000_0000_0000_0000 ≤ n)
    (h : ¬ Document.isSigned64 n = true) : 0 ≤ n := by
  simp only [Document.isSigned64, Bool.and_eq_true, decide_eq_true_eq] at h
  omega

/-- Neither a float nor a text is ever tried. -/
theorem ofDocument?_integer {n : Int} (hlow : -0x8000_0000_0000_0000 ≤ n)
    (hhigh : n < UInt64.size) : ofDocument? (.integer n) = some (ofInteger n) := by
  show (if Document.isSigned64 n then some (int n) else _) = _
  unfold ofInteger
  split
  · rfl
  · rename_i hsigned
    exact if_pos ⟨nonneg_of_not_isSigned64 hlow hsigned, hhigh⟩

theorem exists_value_ofInteger {n : Int} (hlow : -0x8000_0000_0000_0000 ≤ n) :
    ∃ value, (ofInteger n).value = .ok value ∧ value.literal = toString n := by
  unfold ofInteger
  split
  · exact ⟨.int n, rfl, rfl⟩
  · rename_i hsigned
    obtain ⟨m, rfl⟩ := Int.eq_ofNat_of_zero_le (nonneg_of_not_isSigned64 hlow hsigned)
    exact ⟨.uint m, rfl, rfl⟩

end ValueDraft

/-! ### Files -/

/-- **Whole numbers that 64 bits hold are exact.**  The number is read as itself from a JSON text
    and, as long as a sign leaves room for it, from any spelling in a TOML text.  Its literal is its
    digits, without quotes, and they are what stands in the place of a condition, in a batch from
    either kind of file. -/
theorem integer_values_exact {n : Int} (hlow : -0x8000_0000_0000_0000 ≤ n)
    (hhigh : n < UInt64.size) :
    ∃ v : ValueDraft, (v = .int n ∨ v = .uint n.toNat) ∧
      Value.literal <$> v.value = .ok (toString n) ∧
      (∀ text, (Json.Tree.word (Json.integerWord n)).WrittenBy text →
        Json.document? text >>= ValueDraft.ofDocument? = some v) ∧
      (n < 0x8000_0000_0000_0000 → ∀ (w : Toml.IntegerSpelling) (rest : List Char), w.value = n →
        Toml.EndsValue rest → ∃ d, Toml.scalar (w.text ++ rest) = some (d, rest) ∧
          ValueDraft.ofDocument? d = some v) ∧
      (∀ (before behind : String) (join : Conjunction), '?' ∉ before.toList →
        '?' ∉ behind.toList → ConditionDraft.text ⟨before ++ "?" ++ behind, [v], join⟩ =
          .ok (before ++ toString n ++ behind)) ∧
      Json.ComposesTo (.word (Json.integerWord n)) (.ok (toString n)) ∧
      Toml.ComposesTo (.integer n) (.ok (toString n)) := by
  have hdraft := ValueDraft.ofDocument?_integer hlow hhigh
  obtain ⟨value, hvalue, hliteral⟩ := ValueDraft.exists_value_ofInteger hlow
  have hcomposed : Value.literal <$> (ValueDraft.ofInteger n).value = .ok (toString n) := by
    rw [hvalue, ← hliteral]
    rfl
  refine ⟨.ofInteger n, ?_, hcomposed, ?_, ?_, ?_, ?_, ?_⟩
  · unfold ValueDraft.ofInteger
    split
    · exact .inl rfl
    · exact .inr rfl
  · intro text htext
    rw [htext.document?, Json.read_integerWord hlow hhigh]
    exact hdraft
  · rintro hsmall w rest rfl hrest
    have hsigned : Document.isSigned64 w.value = true := by
      simp [Document.isSigned64, hlow, hsmall]
    exact ⟨_, Toml.scalar_integer w hsigned hrest, hdraft⟩
  · intro before behind join hbefore hbehind
    rw [ConditionDraft.text_of_place hbefore hbehind, hvalue, ← hliteral]
    rfl
  · rw [← hcomposed]
    exact Json.composesTo_of_read (Json.read_integerWord hlow hhigh _) hdraft
  · rw [← hcomposed]
    exact Toml.composesTo_of_draft hdraft

/-- The largest number and the smallest. -/
theorem integer_values_exact_at_bounds :
    let largest := "\x7b\"statement\":[\x7b\"kind\":\"select\",\"from\":\"cpu\",\"where\":" ++
      "[\x7b\"expr\":\"x = ?\",\"values\":[18446744073709551615]\x7d]\x7d]\x7d"
    let smallest := "[[statement]]\nkind = \"delete\"\nfrom = \"cpu\"\n" ++
      "where = [\x7bexpr = \"x = ?\",values = [-9223372036854775808]\x7d]\n"
    Batch.ofJson largest >>= Batch.compile ⟨none, none, .text⟩ =
        .ok ["SELECT * FROM \"cpu\" WHERE x = 18446744073709551615"] ∧
      Batch.ofToml smallest >>= Batch.compile ⟨none, none, .text⟩ =
        .ok ["DELETE FROM \"cpu\" WHERE x = -9223372036854775808"] := by
  intro largest smallest
  obtain ⟨-, -, -, -, -, -, hjson, -⟩ := @integer_values_exact 18446744073709551615
    (by decide) (by decide)
  obtain ⟨-, -, -, -, -, -, -, htoml⟩ := @integer_values_exact (-9223372036854775808)
    (by decide) (by decide)
  have hlargest : ((Json.BatchForm.keyed (Json.quotedOf "statement") (Json.read_quotedOf _)).tree
      [Json.oneConditionTree .select "cpu" "x = ?"
        (.word (Json.integerWord 18446744073709551615))]).WrittenBy largest :=
    Json.Tree.writtenBy_compact _
  let w : Toml.IntegerSpelling := .decimal (some '-') '9'
    ("223372036854775808".toList.map (false, ·)) (by simp) (by decide) (by decide)
  have hw : Toml.WritesScalar (.integer (-9223372036854775808)) w.text := .integer w (by decide)
  have hsmallest : Toml.WritesStatements [oneCondition .delete "cpu" "x = ?"
      (.integer (-9223372036854775808))] smallest :=
    Toml.writesStatements_oneConditionText .delete (Toml.writesBasic_verbatim (by decide))
      (Toml.writesBasic_verbatim (by decide)) (hw.writes _)
  exact ⟨hjson _ .select ⟨none, none, .text⟩ "cpu" "x = " "" _ (by decide) (by decide) hlargest,
    htoml .delete ⟨none, none, .text⟩ "cpu" "x = " "" _ (by decide) (by decide) hsmallest⟩

end SeriesQuery
