/-
Counts of nanoseconds.

While a token is read, its numbers, its groups and their sum are counted in 128 bits.  A number
or a product that takes more is refused; a sum that takes more stays at the largest count.
-/
import SeriesQuery.Duration.Basic

namespace SeriesQuery

/-- How many numbers 128 bits tell apart. -/
abbrev Count.size : Nat :=
  0x1_0000_0000_0000_0000_0000_0000_0000_0000

/-- A number of at most 128 bits. -/
structure Count where
  toNat : Nat
  /-- The number fits 128 bits. -/
  toNat_lt : toNat < Count.size
  deriving DecidableEq

namespace Count

@[ext] theorem ext {a b : Count} (h : a.toNat = b.toNat) : a = b := by
  cases a; cases b; simp_all

/-- The count of nothing. -/
def zero : Count :=
  ⟨0, by decide⟩

/-- The number as a count, unless it is too large. -/
def ofNat? (n : Nat) : Option Count :=
  if h : n < size then some ⟨n, h⟩ else none

/-- The nanoseconds of so many units, unless they are too many. -/
def scale? (a : Count) (u : TimeUnit) : Option Count :=
  ofNat? (a.toNat * u.nanos)

/-- The sum, or the largest count where the sum is too large. -/
def add (a b : Count) : Count :=
  ⟨min (a.toNat + b.toNat) (size - 1), Nat.lt_of_le_of_lt (Nat.min_le_right _ _) (by decide)⟩

theorem ofNat?_eq_some_iff {n : Nat} {a : Count} : ofNat? n = some a ↔ a.toNat = n := by
  unfold ofNat?
  split
  · simp only [Option.some.injEq]
    exact ⟨fun h => h ▸ rfl, fun h => ext h.symm⟩
  · rename_i h
    simp only [reduceCtorEq, false_iff]
    rintro rfl
    exact h a.toNat_lt

@[simp] theorem toNat_zero : zero.toNat = 0 := rfl

@[simp] theorem toNat_add (a b : Count) :
    (a.add b).toNat = min (a.toNat + b.toNat) (size - 1) := rfl

end Count
end SeriesQuery
