/-
The grammar of duration tokens.

A token is written as a sequence of groups, each one or more decimal digits directly followed
by a unit.  `Spells` states that grammar apart from any reader, and `TokenGroup.total` adds the
groups up in unbounded numbers.

The reader takes a group off the front exactly where the grammar has one.  What decides where
one group ends and the next begins is that a unit opens with a character that is no digit, and
that only a digit may stand behind it: so `m` is never half of `ms`.
-/
import Mathlib.Algebra.Ring.Nat
import SeriesQuery.Duration.Token
import SeriesQuery.Proofs.Text.Blank
import SeriesQuery.Proofs.Text.Delimited

namespace SeriesQuery

open Text

/-! ### The grammar -/

/-- How a unit may be written. -/
def TimeUnit.spellings : TimeUnit → List (List Char)
  | nanosecond => [['n', 's']]
  | microsecond => [['u'], ['µ']]
  | millisecond => [['m', 's']]
  | second => [['s']]
  | minute => [['m']]
  | hour => [['h']]
  | day => [['d']]
  | week => [['w']]

/-- A number of units. -/
structure TokenGroup where
  count : Nat
  unit : TimeUnit
  deriving DecidableEq, Repr

namespace TokenGroup

/-- The length of the group in nanoseconds. -/
def nanos (g : TokenGroup) : Nat :=
  g.count * g.unit.nanos

/-- The length of all the groups in nanoseconds. -/
def total (gs : List TokenGroup) : Nat :=
  (gs.map nanos).sum

@[simp] theorem total_nil : total [] = 0 := rfl

@[simp] theorem total_cons (g : TokenGroup) (gs : List TokenGroup) :
    total (g :: gs) = g.nanos + total gs := rfl

theorem nanos_le_total {g : TokenGroup} {gs : List TokenGroup} (hg : g ∈ gs) :
    g.nanos ≤ total gs := by
  induction gs with
  | nil => cases hg
  | cons h gs ih =>
      rw [total_cons]
      rcases List.mem_cons.mp hg with rfl | hg
      · exact Nat.le_add_right _ _
      · exact Nat.le_trans (ih hg) (Nat.le_add_left _ _)

end TokenGroup

/-- The text is the groups, one directly behind the other. -/
inductive Spells : List TokenGroup → List Char → Prop
  | nil : Spells [] []
  | cons {digits spelling rest : List Char} {unit : TimeUnit} {gs : List TokenGroup}
      (hne : digits ≠ []) (hdigits : ∀ c ∈ digits, c.isDigit = true)
      (hspelling : spelling ∈ unit.spellings) (hrest : Spells gs rest) :
      Spells (⟨Nat.ofDigitChars 10 digits 0, unit⟩ :: gs) (digits ++ (spelling ++ rest))

/-- The text is at least one group, and nothing but groups. -/
def IsToken (gs : List TokenGroup) (s : List Char) : Prop :=
  gs ≠ [] ∧ Spells gs s

/-! ### Units -/

/-- Nothing more, or a digit next: what may stand behind a unit. -/
def DigitNext (s : List Char) : Prop :=
  s = [] ∨ ∃ c r, s = c :: r ∧ c.isDigit = true

theorem Spells.digitNext {gs : List TokenGroup} {s : List Char} (h : Spells gs s) :
    DigitNext s := by
  cases h with
  | nil => exact Or.inl rfl
  | @cons digits spelling rest unit gs hne hdigits hspelling hrest =>
      cases digits with
      | nil => exact absurd rfl hne
      | cons d ds => exact Or.inr ⟨d, ds ++ (spelling ++ rest), rfl, hdigits d (by simp)⟩

/-- The unit is read off in full: no digit turns `m` into `ms`. -/
theorem TimeUnit.read?_spelling {u : TimeUnit} {spelling rest : List Char}
    (hs : spelling ∈ u.spellings) (hr : DigitNext rest) :
    read? (spelling ++ rest) = some (u, rest) := by
  cases u <;> simp only [spellings, List.mem_cons, List.not_mem_nil, or_false] at hs
  case microsecond => rcases hs with rfl | rfl <;> rfl
  case minute =>
    subst hs
    rcases hr with rfl | ⟨c, r, rfl, hc⟩
    · rfl
    · have hne : c ≠ 's' := by
        rintro rfl
        exact absurd hc (by decide)
      simp [read?, hne]
  all_goals subst hs; rfl

theorem TimeUnit.spelling_of_read? {s rest : List Char} {u : TimeUnit}
    (h : read? s = some (u, rest)) : ∃ spelling ∈ u.spellings, s = spelling ++ rest := by
  unfold read? at h
  split at h <;> simp only [Option.some.injEq, Prod.mk.injEq, reduceCtorEq] at h <;>
    obtain ⟨rfl, rfl⟩ := h <;> simp [spellings]

/-- A unit opens with a character that is no digit. -/
theorem TimeUnit.spelling_head {u : TimeUnit} {spelling : List Char}
    (hs : spelling ∈ u.spellings) : ∃ c r, spelling = c :: r ∧ c.isDigit = false := by
  cases u <;> simp only [spellings, List.mem_cons, List.not_mem_nil, or_false] at hs
  case microsecond => rcases hs with rfl | rfl <;> exact ⟨_, _, rfl, by decide⟩
  all_goals exact ⟨_, _, hs, by decide⟩

/-! ### One group -/

/-- Digits end where the unit begins. -/
theorem span_digits {u : TimeUnit} {digits spelling : List Char} (rest : List Char)
    (hdigits : ∀ c ∈ digits, c.isDigit = true) (hs : spelling ∈ u.spellings) :
    (digits ++ (spelling ++ rest)).takeWhile Char.isDigit = digits ∧
      (digits ++ (spelling ++ rest)).dropWhile Char.isDigit = spelling ++ rest := by
  obtain ⟨c, r, rfl, hc⟩ := TimeUnit.spelling_head hs
  have hend : EndsRun Char.isDigit (c :: (r ++ rest)) := endsRun_cons hc _
  exact ⟨hend.takeWhile_append hdigits, hend.dropWhile_append hdigits⟩

namespace Duration

/-- What reading a group gives, both guards included. -/
theorem group_append {u : TimeUnit} {digits spelling rest : List Char} (hne : digits ≠ [])
    (hdigits : ∀ c ∈ digits, c.isDigit = true) (hs : spelling ∈ u.spellings)
    (hr : DigitNext rest) :
    group (digits ++ (spelling ++ rest)) =
      ((Count.ofNat? (Nat.ofDigitChars 10 digits 0)).bind (·.scale? u)).map (·, rest) := by
  obtain ⟨htake, hdrop⟩ := span_digits rest hdigits hs
  unfold group
  simp only [Reader.bind_apply, Reader.span1_apply, Reader.lift_apply, htake, hdrop,
    List.isEmpty_iff, hne, if_false, Option.bind_some]
  cases Count.ofNat? (Nat.ofDigitChars 10 digits 0) with
  | none => rfl
  | some n => simp [TimeUnit.read?_spelling hs hr]

/-- Whatever is read as a group is one, and its length is exact. -/
theorem spells_of_group {s rest : List Char} {a : Count} (h : group s = some (a, rest)) :
    ∃ digits spelling unit, digits ≠ [] ∧ (∀ c ∈ digits, c.isDigit = true) ∧
      spelling ∈ TimeUnit.spellings unit ∧ s = digits ++ (spelling ++ rest) ∧
      a.toNat = TokenGroup.nanos ⟨Nat.ofDigitChars 10 digits 0, unit⟩ := by
  unfold group at h
  simp only [Reader.bind_apply, Reader.span1_apply, Reader.lift_apply] at h
  split at h
  · cases h
  · rename_i hne
    rw [Option.bind_some] at h
    obtain ⟨⟨n, r⟩, hn, h⟩ := Option.bind_eq_some_iff.mp h
    obtain ⟨m, hm, hmr⟩ := Option.map_eq_some_iff.mp hn
    cases hmr
    obtain ⟨⟨u, r'⟩, hu, h⟩ := Option.bind_eq_some_iff.mp h
    obtain ⟨b, hb, hbr⟩ := Option.map_eq_some_iff.mp h
    cases hbr
    obtain ⟨spelling, hspelling, hdrop⟩ := TimeUnit.spelling_of_read? hu
    refine ⟨s.takeWhile Char.isDigit, spelling, u, ?_, ?_, hspelling, ?_, ?_⟩
    · simpa using hne
    · intro c hc
      exact List.all_eq_true.mp List.all_takeWhile c hc
    · rw [← hdrop, List.takeWhile_append_dropWhile]
    · rw [Count.ofNat?_eq_some_iff.mp hb, Count.ofNat?_eq_some_iff.mp hm]
      rfl

end Duration
end SeriesQuery
