/-
Durations.

A duration is a whole number of nanoseconds, fewer than `2 ^ 64` seconds of them.  A token
writes it as whole numbers of units.
-/

namespace SeriesQuery

/-- The units a duration token may count in. -/
inductive TimeUnit where
  | nanosecond
  | microsecond
  | millisecond
  | second
  | minute
  | hour
  | day
  | week
  deriving DecidableEq, Repr

/-- The length of the unit in nanoseconds. -/
def TimeUnit.nanos : TimeUnit → Nat
  | nanosecond => 1
  | microsecond => 1000
  | millisecond => 1000000
  | second => 1000000000
  | minute => 60 * 1000000000
  | hour => 3600 * 1000000000
  | day => 86400 * 1000000000
  | week => 604800 * 1000000000

theorem TimeUnit.nanos_pos (u : TimeUnit) : 0 < u.nanos := by
  cases u <;> decide

/-- The unit as a token writes it. -/
def TimeUnit.symbol : TimeUnit → String
  | nanosecond => "ns"
  | microsecond => "u"
  | millisecond => "ms"
  | second => "s"
  | minute => "m"
  | hour => "h"
  | day => "d"
  | week => "w"

/-- An elapsed time of fewer than `2 ^ 64` seconds. -/
structure Duration where
  /-- The whole of it in nanoseconds. -/
  nanos : Nat
  /-- The whole seconds fit 64 bits. -/
  nanos_lt : nanos < UInt64.size * 1000000000
  deriving DecidableEq

namespace Duration

/-- The duration of so many nanoseconds, unless they are too many. -/
def ofNanos? (n : Nat) : Option Duration :=
  if h : n < UInt64.size * 1000000000 then some ⟨n, h⟩ else none

/-- The whole seconds of the duration. -/
def seconds (d : Duration) : Nat :=
  d.nanos / 1000000000

/-- The nanoseconds beyond the whole seconds. -/
def subsecondNanos (d : Duration) : Nat :=
  d.nanos % 1000000000

@[ext] theorem ext {d e : Duration} (h : d.nanos = e.nanos) : d = e := by
  cases d; cases e; simp_all

theorem ofNanos?_eq_some_iff {n : Nat} {d : Duration} : ofNanos? n = some d ↔ d.nanos = n := by
  unfold ofNanos?
  split
  · simp only [Option.some.injEq]
    exact ⟨fun h => h ▸ rfl, fun h => ext h.symm⟩
  · rename_i h
    simp only [reduceCtorEq, false_iff]
    rintro rfl
    exact h d.nanos_lt

end Duration
end SeriesQuery
