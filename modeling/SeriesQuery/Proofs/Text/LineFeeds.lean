/-
Line feeds in texts, and lines.

Texts are put together by writing one behind the other, so the line feeds of a text are those of
its parts, however often a part is nested in another.  A text that is printed with a line feed
behind it is cut into one line more than it has line feeds itself.  So a list of texts comes back
from its lines exactly when there is no line feed in any of them, and otherwise there are too many
lines.
-/
import Mathlib.Algebra.Ring.Nat

namespace SeriesQuery.Text

/-! ### Counting -/

/-- The number of line feeds in a text. -/
def lineFeeds (s : String) : Nat :=
  s.toList.count '\n'

/-- The number of line feeds in all the texts. -/
def totalFeeds (ts : List String) : Nat :=
  (ts.map lineFeeds).sum

theorem lineFeeds_eq_zero_iff {s : String} : lineFeeds s = 0 ↔ '\n' ∉ s.toList :=
  List.count_eq_zero

@[simp] theorem lineFeeds_append (s t : String) :
    lineFeeds (s ++ t) = lineFeeds s + lineFeeds t := by
  unfold lineFeeds
  rw [String.toList_append, List.count_append]

@[simp] theorem totalFeeds_nil : totalFeeds [] = 0 := rfl

@[simp] theorem totalFeeds_cons (t : String) (ts : List String) :
    totalFeeds (t :: ts) = lineFeeds t + totalFeeds ts :=
  List.sum_cons

@[simp] theorem totalFeeds_append (ts us : List String) :
    totalFeeds (ts ++ us) = totalFeeds ts + totalFeeds us := by
  unfold totalFeeds
  rw [List.map_append, List.sum_append]

theorem totalFeeds_flatMap {α : Type} (g : α → List String) (as : List α) :
    totalFeeds (as.flatMap g) = (as.map fun a => totalFeeds (g a)).sum := by
  induction as with
  | nil => rfl
  | cons a as ih => rw [List.flatMap_cons, totalFeeds_append, ih, List.map_cons, List.sum_cons]

theorem totalFeeds_eq_zero_iff {ts : List String} :
    totalFeeds ts = 0 ↔ ∀ t ∈ ts, '\n' ∉ t.toList := by
  unfold totalFeeds
  rw [List.sum_eq_zero_iff_forall_eq_nat, List.forall_mem_map]
  simp only [lineFeeds_eq_zero_iff]

/-- Texts written one behind the other. -/
theorem lineFeeds_join (ts : List String) : lineFeeds (String.join ts) = totalFeeds ts := by
  induction ts with
  | nil => rfl
  | cons t ts ih => rw [String.join_cons, lineFeeds_append, ih, totalFeeds_cons]

/-- Texts written one behind the other, with a text without line feeds between each two. -/
theorem lineFeeds_intercalate {separator : String} (h : lineFeeds separator = 0)
    (ts : List String) : lineFeeds (separator.intercalate ts) = totalFeeds ts := by
  induction ts with
  | nil => rfl
  | cons t ts ih =>
      cases ts with
      | nil => simp
      | cons u us =>
          rw [String.intercalate_cons_cons, lineFeeds_append, lineFeeds_append, ih, h,
            totalFeeds_cons t, Nat.add_zero]

/-! ### Lines -/

/-- The lines of a text: what stands in front of each line feed. -/
def lines (s : String) : List String :=
  (s.toList.splitOn '\n').dropLast.map String.ofList

theorem length_splitOn (c : Char) (s : List Char) : (s.splitOn c).length = s.count c + 1 := by
  unfold List.splitOn
  induction s with
  | nil => rfl
  | cons d s ih =>
      rw [List.splitOnP_cons_eq_if_modifyHead]
      by_cases hd : (d == c) = true
      · rw [if_pos hd, List.length_cons, ih, eq_of_beq hd, List.count_cons_self]
      · rw [if_neg hd, List.length_modifyHead, ih, List.count_cons_of_ne (by simpa using hd)]

/-- There are as many lines as line feeds. -/
theorem length_lines (s : String) : (lines s).length = lineFeeds s := by
  unfold lines lineFeeds
  rw [List.length_map, List.length_dropLast, length_splitOn, Nat.add_sub_cancel]

/-- The texts, a line feed behind each. -/
def unlines (ts : List String) : String :=
  String.join (ts.map (· ++ "\n"))

theorem lineFeeds_unlines (ts : List String) :
    lineFeeds (unlines ts) = ts.length + totalFeeds ts := by
  induction ts with
  | nil => rfl
  | cons t ts ih =>
      have hcons : unlines (t :: ts) = t ++ "\n" ++ unlines ts := String.join_cons
      have hfeed : lineFeeds "\n" = 1 := rfl
      rw [hcons, lineFeeds_append, lineFeeds_append, ih, hfeed, totalFeeds_cons, List.length_cons]
      omega

/-- Every line feed inside a text makes a line too many. -/
theorem length_lines_unlines (ts : List String) :
    (lines (unlines ts)).length = ts.length + totalFeeds ts := by
  rw [length_lines, lineFeeds_unlines]

theorem toList_unlines (ts : List String) :
    (unlines ts).toList = ['\n'].intercalate (ts.map String.toList ++ [[]]) := by
  induction ts with
  | nil => rfl
  | cons t ts ih =>
      have hcons : unlines (t :: ts) = t ++ "\n" ++ unlines ts := String.join_cons
      obtain ⟨u, us, hrest⟩ := List.exists_cons_of_ne_nil
        (List.append_ne_nil_of_right_ne_nil (ts.map String.toList) (List.cons_ne_nil [] []))
      rw [hcons, List.map_cons, List.cons_append, hrest, List.intercalate_cons_cons, ← hrest, ← ih,
        String.toList_append, String.toList_append]
      rfl

/-- **Texts come back from their lines exactly when there is no line feed in them.** -/
theorem lines_unlines_eq_iff {ts : List String} :
    lines (unlines ts) = ts ↔ ∀ t ∈ ts, '\n' ∉ t.toList := by
  constructor
  · intro h
    have hlength := congrArg List.length h
    rw [length_lines_unlines] at hlength
    exact totalFeeds_eq_zero_iff.mp (by omega)
  · intro h
    have hpieces : ∀ p ∈ ts.map String.toList ++ [[]], '\n' ∉ p := by
      intro p hp
      rcases List.mem_append.mp hp with hp | hp
      · obtain ⟨t, ht, rfl⟩ := List.mem_map.mp hp
        exact h t ht
      · rw [List.mem_singleton.mp hp]
        exact List.not_mem_nil
    unfold lines
    rw [toList_unlines, List.splitOn_intercalate _ hpieces (by simp), List.dropLast_concat,
      List.map_map]
    simp [Function.comp_def]

end SeriesQuery.Text
