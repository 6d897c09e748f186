/-
Reading text from the front.

A reader takes the characters it understands and hands back the rest, or refuses.
Repetition goes on only while a step leaves strictly less to read, so every reader ends
without a bound on the number of steps.
-/

namespace SeriesQuery.Text

/-- Takes a value off the front of a text, or refuses. -/
abbrev Reader (α : Type) := StateT (List Char) Option α

namespace Reader

variable {α β : Type}

/-- The next character, if it is one that `p` accepts. -/
def satisfying (p : Char → Bool) : Reader Char
  | c :: r => if p c then some (c, r) else none
  | [] => none

/-- Exactly the character `c`. -/
def char (c : Char) : Reader Unit
  | d :: r => if d = c then some ((), r) else none
  | [] => none

/-- Exactly the characters of `w`, in order. -/
def word : List Char → Reader Unit
  | [] => pure ()
  | c :: w => do
    char c
    word w

/-- The longest run of characters that `p` accepts, possibly none. -/
def span (p : Char → Bool) : Reader (List Char) :=
  fun s => some (s.takeWhile p, s.dropWhile p)

/-- The longest run of characters that `p` accepts, at least one. -/
def span1 (p : Char → Bool) : Reader (List Char) := do
  let cs ← span p
  if cs.isEmpty then failure else pure cs

/-- Succeeds only at the end of the text. -/
def atEnd : Reader Unit
  | [] => some ((), [])
  | _ :: _ => none

/-- What `r` reads, or nothing where `r` refuses. -/
def optional (r : Reader α) : Reader (Option α) :=
  (some <$> r) <|> pure none

/-- `r` again and again, until it refuses or takes nothing. -/
def repeated (r : Reader α) (s : List Char) : Option (List α × List Char) :=
  match r s with
  | some (a, rest) =>
    if rest.length < s.length then
      (repeated r rest).map fun (as, rest') => (a :: as, rest')
    else some ([], s)
  | none => some ([], s)
termination_by s.length

theorem repeated_of_eq_none {r : Reader α} {s : List Char} (h : r s = none) :
    repeated r s = some ([], s) := by
  rw [repeated, h]

theorem repeated_of_eq_some {r : Reader α} {s rest : List Char} {a : α}
    (h : r s = some (a, rest)) (hlt : rest.length < s.length) :
    repeated r s = (repeated r rest).map fun (as, rest') => (a :: as, rest') := by
  rw [repeated, h]
  simp only [hlt, if_true]

/-- `item`, or several of them with `separator` between each two; possibly none. -/
def separated (item : Reader α) (separator : Reader β) : Reader (List α) := do
  match ← optional item with
  | none => pure []
  | some a =>
    let as ← repeated (do let _ ← separator; item)
    pure (a :: as)

/-- The whole text as `r` reads it, if `r` reads all of it. -/
def whole (r : Reader α) (s : List Char) : Option α :=
  match r s with
  | some (a, []) => some a
  | _ => none

/-! ### What readers read -/

@[simp] theorem bind_apply (r : Reader α) (f : α → Reader β) (s : List Char) :
    (r >>= f) s = (r s).bind fun (a, rest) => f a rest := by
  cases h : r s <;> simp [bind, StateT.bind, h]

@[simp] theorem lift_apply (o : Option α) (s : List Char) :
    (liftM o : Reader α) s = o.map (·, s) := by
  cases o <;> rfl

theorem span1_apply (p : Char → Bool) (s : List Char) :
    span1 p s = if (s.takeWhile p).isEmpty then none
      else some (s.takeWhile p, s.dropWhile p) := by
  unfold span1 span
  rw [bind_apply]
  show (if (s.takeWhile p).isEmpty then failure else pure (s.takeWhile p) : Reader _)
    (s.dropWhile p) = _
  split <;> rfl

theorem whole_eq_some_iff {r : Reader α} {s : List Char} {a : α} :
    whole r s = some a ↔ r s = some (a, []) := by
  unfold whole
  split
  · rename_i b h
    simp [h]
  · rename_i h
    simp only [reduceCtorEq, false_iff]
    exact h a

end Reader
end SeriesQuery.Text
