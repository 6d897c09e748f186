/-
Scalars in TOML texts.

A value is told by how it starts, but numbers and date-times start alike: an integer is what is
left when the readers of date-times and floats have refused its digits.  They do, because a
date-time has a hyphen or a colon where an integer has a digit or its end, and a float goes on
behind the digits.  What follows a value on its line is never one of these characters.
-/
import SeriesQuery.Proofs.Time.Moment
import SeriesQuery.Toml.Scalar

namespace SeriesQuery.Toml

open Text Text.Reader

/-! ### What follows a value -/

/-- A character that parts a value from what follows. -/
def isDelimiter (c : Char) : Bool :=
  isSpace c || [',', ']', '\x7d', '#', '\n', '\r'].contains c

/-- What may follow a value: nothing, or a character that parts it from the rest; a digit behind a
    blank could be taken for the time of a date. -/
structure EndsValue (rest : List Char) : Prop where
  head : EndsRun (fun c => !isDelimiter c) rest
  behindSpace : ∀ r, rest = ' ' :: r → EndsRun Char.isDigit r

/-- The characters that part values. -/
def delimiters : List Char :=
  [' ', '\t', ',', ']', '\x7d', '#', '\n', '\r']

theorem mem_delimiters {c : Char} (h : isDelimiter c = true) : c ∈ delimiters := by
  simpa [delimiters, isDelimiter, isSpace, or_assoc] using h

/-- None of these characters parts values. -/
theorem EndsValue.endsRun {rest : List Char} (h : EndsValue rest) {p : Char → Bool}
    (hp : ∀ c ∈ delimiters, p c = false) : EndsRun p rest :=
  h.head.mono fun c hc => by
    cases hdelimiter : isDelimiter c with
    | true => rw [hp c (mem_delimiters hdelimiter)] at hc; cases hc
    | false => rfl

/-- A character that goes on a number or a date-time. -/
def isScalarChar (c : Char) : Bool :=
  c.isAlphanum || ['_', '.', '+', '-', ':'].contains c

theorem EndsValue.endsScalar {rest : List Char} (h : EndsValue rest) : EndsRun isScalarChar rest :=
  h.endsRun (by decide)

theorem EndsValue.endsMoment {rest : List Char} (h : EndsValue rest) : Moment.EndsMoment rest where
  head := h.endsRun (by decide)
  behindSpace := h.behindSpace

/-! ### Digits with underscores -/

/-- Digits, each with an underscore before it or not. -/
def spaced (ds : List (Bool × Char)) : List Char :=
  ds.flatMap fun (underscore, d) => if underscore then ['_', d] else [d]

theorem moreDigits_append {isDigit : Char → Bool} (hunderscore : isDigit '_' = false)
    {ds : List (Bool × Char)} (hds : ∀ d ∈ ds.map Prod.snd, isDigit d = true) {rest : List Char}
    (hrest : EndsRun (fun c => isDigit c || c == '_') rest) :
    moreDigits isDigit (spaced ds ++ rest) = (ds.map Prod.snd, rest) := by
  induction ds with
  | nil =>
      cases rest with
      | nil => rfl
      | cons c r =>
          have hc := hrest c r rfl
          simp only [Bool.or_eq_false_iff, beq_eq_false_iff_ne] at hc
          show moreDigits isDigit (c :: r) = _
          unfold moreDigits
          split <;> simp_all
  | cons d ds ih =>
      obtain ⟨underscore, d⟩ := d
      have hd : isDigit d = true := hds d (by simp)
      have hne : d ≠ '_' := by
        rintro rfl
        rw [hunderscore] at hd
        cases hd
      have ih := ih fun d hd => hds d (by simp_all)
      cases underscore with
      | true =>
          show moreDigits isDigit ('_' :: d :: (spaced ds ++ rest)) = _
          simp [moreDigits, hd, ih]
      | false =>
          show moreDigits isDigit (d :: (spaced ds ++ rest)) = _
          unfold moreDigits
          split <;> simp_all

theorem digits_append {isDigit : Char → Bool} (hunderscore : isDigit '_' = false) {d : Char}
    {ds : List (Bool × Char)} (hds : ∀ c ∈ d :: ds.map Prod.snd, isDigit c = true)
    {rest : List Char} (hrest : EndsRun (fun c => isDigit c || c == '_') rest) :
    digits isDigit (d :: (spaced ds ++ rest)) = some (d :: ds.map Prod.snd, rest) := by
  have hfirst : satisfying isDigit (d :: (spaced ds ++ rest)) = some (d, spaced ds ++ rest) :=
    if_pos (hds d List.mem_cons_self)
  have hmore := moreDigits_append hunderscore (fun c hc => hds c (List.mem_cons_of_mem d hc)) hrest
  unfold digits
  rw [bind_of_eq_some hfirst]
  show some (d :: (moreDigits isDigit (spaced ds ++ rest)).1,
    (moreDigits isDigit (spaced ds ++ rest)).2) = _
  rw [hmore]

/-! ### What is no date-time -/

theorem exists_of_twoDigits {s rest : List Char} {n : Nat} (h : twoDigits s = some (n, rest)) :
    ∃ a b, s = a :: b :: rest ∧ a.isDigit = true ∧ b.isDigit = true := by
  obtain ⟨a, left, hfirst, h⟩ := bind_eq_some_iff.mp h
  obtain ⟨b, left', hsecond, h⟩ := bind_eq_some_iff.mp h
  obtain rfl : left' = rest := congrArg Prod.snd (Option.some.inj h)
  obtain ⟨rfl, ha⟩ := satisfying_eq_some_iff.mp hfirst
  obtain ⟨rfl, hb⟩ := satisfying_eq_some_iff.mp hsecond
  exact ⟨a, b, rfl, ha, hb⟩

/-- A character of a number or a word. -/
def isRunChar (c : Char) : Bool :=
  c.isAlphanum || c == '_'

theorem isRunChar_of_isDigit {c : Char} (h : c.isDigit = true) : isRunChar c = true := by
  simp [isRunChar, Char.isAlphanum, h]

/-- A date has a hyphen behind its digits, and a time of day has a colon. -/
theorem exists_of_read {s : Moment.Strictness} {cs rest : List Char} {m : Moment}
    (h : Moment.read s cs = some (m, rest)) :
    ∃ d ds c r, cs = d :: ds ++ c :: r ∧ (∀ x ∈ d :: ds, x.isDigit = true) ∧ c ∈ ['-', ':'] := by
  cases hdate : Moment.readDate cs with
  | some x =>
      obtain ⟨century, left, hcentury, hdate⟩ := bind_eq_some_iff.mp hdate
      obtain ⟨year, left, hyear, hdate⟩ := bind_eq_some_iff.mp hdate
      obtain ⟨_, left, hhyphen, -⟩ := bind_eq_some_iff.mp hdate
      obtain ⟨a, b, rfl, ha, hb⟩ := exists_of_twoDigits hcentury
      obtain ⟨c, d, rfl, hc, hd⟩ := exists_of_twoDigits hyear
      obtain rfl := char_eq_some_iff.mp hhyphen
      exact ⟨a, [b, c, d], '-', left, rfl, by simp [ha, hb, hc, hd], by decide⟩
  | none =>
      rw [Moment.read_of_no_date hdate] at h
      obtain ⟨⟨time, left⟩, htime, -⟩ := Option.map_eq_some_iff.mp h
      obtain ⟨hour, left, hhour, htime⟩ := bind_eq_some_iff.mp htime
      obtain ⟨_, left, hcolon, -⟩ := bind_eq_some_iff.mp htime
      obtain ⟨a, b, rfl, ha, hb⟩ := exists_of_twoDigits hhour
      obtain rfl := char_eq_some_iff.mp hcolon
      exact ⟨a, [b], ':', left, rfl, by simp [ha, hb], by decide⟩

/-- A run of digits, letters and underscores is no date-time if it ends in neither. -/
theorem read_run_eq_none (s : Moment.Strictness) {run rest : List Char}
    (hrun : ∀ c ∈ run, isRunChar c = true) (hrest : EndsRun isScalarChar rest) :
    Moment.read s (run ++ rest) = none := by
  rw [Option.eq_none_iff_forall_ne_some]
  rintro ⟨m, left⟩ h
  obtain ⟨d, ds, c, r, happend, hds, hc⟩ := exists_of_read h
  have hends : EndsRun isRunChar rest := hrest.mono fun c hc => by
    simp only [isRunChar, Bool.or_eq_true] at hc
    simp only [isScalarChar, Bool.or_eq_true]
    rcases hc with hc | hc
    · exact .inl hc
    · exact .inr (by rw [beq_iff_eq.mp hc]; decide)
  have hmark : isRunChar c = false ∧ isScalarChar c = true :=
    (by decide : ∀ c ∈ ['-', ':'], isRunChar c = false ∧ isScalarChar c = true) c hc
  have hdrop := congrArg (List.dropWhile isRunChar) happend
  rw [hends.dropWhile_append hrun, (endsRun_cons hmark.1 r).dropWhile_append
    fun x hx => isRunChar_of_isDigit (hds x hx)] at hdrop
  have hblocked := hrest c r hdrop
  rw [hmark.2] at hblocked
  cases hblocked

/-- A sign opens no date-time. -/
theorem read_sign_eq_none (s : Moment.Strictness) {c : Char} (hc : c ∈ ['+', '-'])
    (r : List Char) : Moment.read s (c :: r) = none := by
  rw [Option.eq_none_iff_forall_ne_some]
  rintro ⟨m, left⟩ h
  obtain ⟨d, ds, _, _, happend, hds, -⟩ := exists_of_read h
  obtain rfl : c = d := List.head_eq_of_cons_eq happend
  exact absurd (hds c List.mem_cons_self)
    ((by decide : ∀ c ∈ ['+', '-'], c.isDigit ≠ true) c hc)

/-! ### Integers -/

/-- A base that integers may have besides ten. -/
inductive Radix where
  | hexadecimal
  | octal
  | binary
  deriving DecidableEq, Repr

namespace Radix

/-- The letter behind the zero that opens an integer of the base. -/
def letter : Radix → Char
  | hexadecimal => 'x'
  | octal => 'o'
  | binary => 'b'

/-- The base. -/
def base : Radix → Nat
  | hexadecimal => 16
  | octal => 8
  | binary => 2

/-- Whether the character is a digit of the base. -/
def isDigit (r : Radix) (c : Char) : Bool :=
  (hexDigit? c).any (· < r.base)

/-- The number that digits of the base write. -/
def valueOf (r : Radix) (ds : List Char) : Nat :=
  ds.foldl (fun n d => n * r.base + (hexDigit? d).getD 0) 0

end Radix

/-- A way to write an integer.  Each digit but the first may have an underscore before it. -/
inductive IntegerSpelling where
  /-- In base ten, with a sign or without.  Only zero starts with a zero. -/
  | decimal (sign : Option Char) (first : Char) (more : List (Bool × Char))
      (hsign : ∀ c ∈ sign, c ∈ ['+', '-'])
      (hdigits : ∀ d ∈ first :: more.map Prod.snd, d.isDigit = true)
      (hzero : first = '0' → more = [])
  /-- In another base, behind a zero and a letter. -/
  | radix (r : Radix) (first : Char) (more : List (Bool × Char))
      (hdigits : ∀ d ∈ first :: more.map Prod.snd, r.isDigit d = true)

namespace IntegerSpelling

/-- The integer as it is written. -/
def text : IntegerSpelling → List Char
  | decimal sign first more _ _ _ => sign.toList ++ first :: spaced more
  | radix r first more _ => '0' :: r.letter :: first :: spaced more

/-- The integer that is meant. -/
def value : IntegerSpelling → Int
  | decimal sign first more _ _ _ =>
    let n : Int := Numeral.valueOf (first :: more.map Prod.snd)
    if sign = some '-' then -n else n
  | radix r first more _ => r.valueOf (first :: more.map Prod.snd)

end IntegerSpelling

/-! ### What is no integer -/

theorem lineText_eq_none {c : Char} (hdouble : c ≠ '"') (hsingle : c ≠ '\'') (r : List Char) :
    lineText (c :: r) = none := by
  unfold lineText
  split <;> simp_all

theorem quotedText_eq_none {c : Char} (hdouble : c ≠ '"') (hsingle : c ≠ '\'') (r : List Char) :
    quotedText (c :: r) = none := by
  unfold quotedText
  split
  · exact absurd (List.cons.inj ‹_›).1 hdouble
  · exact absurd (List.cons.inj ‹_›).1 hsingle
  · exact lineText_eq_none hdouble hsingle r

theorem word_cons_eq_none {c d : Char} (h : d ≠ c) (w r : List Char) :
    word (c :: w) (d :: r) = none :=
  bind_of_eq_none (if_neg h)

theorem boolean_eq_none {c : Char} (htrue : c ≠ 't') (hfalse : c ≠ 'f') (r : List Char) :
    boolean (c :: r) = none := by
  unfold boolean
  rw [orElse_of_eq_none (bind_of_eq_none (word_cons_eq_none htrue _ r)),
    bind_of_eq_none (word_cons_eq_none hfalse _ r)]

/-- Digits with neither a fraction nor an exponent behind them are no float. -/
theorem decimalFloat_eq_none {s left rest ds : List Char} {negative : Bool}
    (hsign : Numeral.sign s = some (negative, left)) (hwhole : wholeDigits left = some (ds, rest))
    (hrest : EndsRun (fun c => c == '.' || c == 'e' || c == 'E') rest) : decimalFloat s = none := by
  have hfraction : fraction rest = none := by
    refine bind_of_eq_none ?_
    cases rest with
    | nil => rfl
    | cons c r =>
        have hc := hrest c r rfl
        exact if_neg (by rintro rfl; simp at hc)
  have hexponent : exponent rest = none := by
    refine bind_of_eq_none ?_
    cases rest with
    | nil => rfl
    | cons c r =>
        have hc := hrest c r rfl
        exact if_neg (by simp_all)
  unfold decimalFloat
  rw [bind_of_eq_some hsign, bind_of_eq_some hwhole,
    bind_of_eq_some (optional_of_eq_none hfraction),
    bind_of_eq_some (optional_of_eq_none hexponent)]
  rfl

theorem wordFloat_eq_none {s r : List Char} {c : Char} {negative : Bool}
    (hsign : Numeral.sign s = some (negative, c :: r)) (hinf : c ≠ 'i') (hnan : c ≠ 'n') :
    wordFloat s = none := by
  unfold wordFloat
  rw [bind_of_eq_some hsign, orElse_of_eq_none (bind_of_eq_none (word_cons_eq_none hinf _ r)),
    bind_of_eq_none (word_cons_eq_none hnan _ r)]

/-! ### Reading integers -/

theorem sign_append {sign : Option Char} (hsign : ∀ c ∈ sign, c ∈ ['+', '-']) {d : Char}
    (hd : d.isDigit = true) (r : List Char) :
    Numeral.sign (sign.toList ++ d :: r) = some (decide (sign = some '-'), d :: r) := by
  cases sign with
  | none =>
      show Numeral.sign (d :: r) = some (false, d :: r)
      unfold Numeral.sign
      split
      · exact absurd hd ((List.cons.inj ‹_›).1 ▸ by decide)
      · exact absurd hd ((List.cons.inj ‹_›).1 ▸ by decide)
      · rfl
  | some c =>
      have hc := hsign c rfl
      simp only [List.mem_cons, List.not_mem_nil, or_false] at hc
      rcases hc with rfl | rfl <;> rfl

theorem wholeDigits_append {first : Char} {more : List (Bool × Char)}
    (hdigits : ∀ d ∈ first :: more.map Prod.snd, d.isDigit = true)
    (hzero : first = '0' → more = []) {rest : List Char}
    (hrest : EndsRun (fun c => c.isDigit || c == '_') rest) :
    wholeDigits (first :: (spaced more ++ rest)) = some (first :: more.map Prod.snd, rest) := by
  by_cases hfirst : first = '0'
  · obtain rfl := hzero hfirst
    rw [hfirst]
    rfl
  · unfold wholeDigits
    split
    · exact absurd (List.cons.inj ‹_›).1 hfirst
    · exact digits_append (by decide) hdigits hrest

theorem isRunChar_of_isAlpha {c : Char} (h : c.isAlpha = true) : isRunChar c = true :=
  Bool.or_eq_true_iff.mpr (.inl (Bool.or_eq_true_iff.mpr (.inl h)))

theorem isRunChar_of_hexDigit {c : Char} {n : Nat} (h : hexDigit? c = some n) :
    isRunChar c = true := by
  unfold hexDigit? at h
  split at h
  · exact isRunChar_of_isDigit ‹_›
  · split at h
    · rename_i hlower
      have hz : c ≤ 'z' := Char.le_trans hlower.2 (by decide : 'f' ≤ 'z')
      have hletter : c.isLower = true :=
        Bool.and_eq_true_iff.mpr ⟨decide_eq_true hlower.1, decide_eq_true hz⟩
      exact isRunChar_of_isAlpha (Bool.or_eq_true_iff.mpr (.inr hletter))
    · split at h
      · rename_i hupper
        have hz : c ≤ 'Z' := Char.le_trans hupper.2 (by decide : 'F' ≤ 'Z')
        have hletter : c.isUpper = true := decide_eq_true ⟨hupper.1, hz⟩
        exact isRunChar_of_isAlpha (Bool.or_eq_true_iff.mpr (.inl hletter))
      · cases h

theorem Radix.isRunChar_of_isDigit (r : Radix) {c : Char} (h : r.isDigit c = true) :
    isRunChar c = true := by
  unfold Radix.isDigit at h
  cases hdigit : hexDigit? c with
  | none =>
      rw [hdigit] at h
      cases h
  | some n => exact isRunChar_of_hexDigit hdigit

theorem isRunChar_of_mem_spaced {ds : List (Bool × Char)}
    (hds : ∀ d ∈ ds.map Prod.snd, isRunChar d = true) : ∀ c ∈ spaced ds, isRunChar c = true := by
  intro c hc
  obtain ⟨⟨underscore, d⟩, hd, hc⟩ := List.mem_flatMap.mp hc
  have hrun : isRunChar d = true := hds d (List.mem_map_of_mem hd)
  cases underscore with
  | true =>
      simp only [if_true, List.mem_cons, List.not_mem_nil, or_false] at hc
      rcases hc with rfl | rfl
      · rfl
      · exact hrun
  | false =>
      rw [List.mem_singleton.mp hc]
      exact hrun

theorem Radix.valueOf_cast (r : Radix) (ds : List Char) :
    ds.foldl (fun (n : Int) d => n * r.base + (hexDigit? d).getD 0) 0 = r.valueOf ds := by
  have hfrom (ds : List Char) : ∀ n : Nat,
      ds.foldl (fun (n : Int) d => n * r.base + (hexDigit? d).getD 0) n =
        (ds.foldl (fun n d => n * r.base + (hexDigit? d).getD 0) n : Nat) := by
    induction ds with
    | nil => exact fun n => rfl
    | cons d ds ih =>
        intro n
        rw [List.foldl_cons, List.foldl_cons, ← ih]
        push_cast
        rfl
  exact hfrom ds 0

/-- An integer of either kind. -/
def integer : Reader Document :=
  radixInteger 'x' 16
  <|> radixInteger 'o' 8
  <|> radixInteger 'b' 2
  <|> decimalInteger

/-- What starts with a digit or a sign, and is no date-time and no float, can only be an integer. -/
theorem scalar_eq_integer {s : List Char} {c : Char} {r : List Char} (hcons : s = c :: r)
    (hc : (c.isDigit || c == '+' || c == '-') = true) (hmoment : Moment.read .strict s = none)
    (hdecimal : decimalFloat s = none) (hword : wordFloat s = none) : scalar s = integer s := by
  have hne (d : Char) (hd : (d.isDigit || d == '+' || d == '-') = false) : c ≠ d := by
    rintro rfl
    rw [hc] at hd
    cases hd
  have hquoted : quotedText s = none := hcons ▸ quotedText_eq_none (hne _ rfl) (hne _ rfl) r
  have hboolean : boolean s = none := hcons ▸ boolean_eq_none (hne _ rfl) (hne _ rfl) r
  unfold scalar
  rw [orElse_of_eq_none (bind_of_eq_none hquoted), orElse_of_eq_none hboolean,
    orElse_of_eq_none (bind_of_eq_none hmoment), orElse_of_eq_none hdecimal,
    orElse_of_eq_none hword]
  rfl

/-- Before the end of a value stands no letter. -/
theorem char_eq_none_of_endsRun {p : Char → Bool} {rest : List Char} (h : EndsRun p rest)
    {c : Char} (hc : p c = true) : Reader.char c rest = none := by
  cases rest with
  | nil => rfl
  | cons d r =>
      refine if_neg ?_
      rintro rfl
      rw [h d r rfl] at hc
      cases hc

namespace IntegerSpelling

section Decimal

variable {sign : Option Char} {first : Char} {more : List (Bool × Char)} {rest : List Char}

/-- A sign or a digit opens an integer in base ten, and a zero only where it is the integer. -/
theorem exists_first (hsign : ∀ c ∈ sign, c ∈ ['+', '-']) (hfirst : first.isDigit = true)
    (r : List Char) :
    ∃ c r', sign.toList ++ first :: r = c :: r' ∧ (c.isDigit || c == '+' || c == '-') = true ∧
      (c = '0' → sign = none ∧ first = '0') := by
  cases sign with
  | none => exact ⟨first, _, rfl, by simp [hfirst], fun h => ⟨rfl, h⟩⟩
  | some c =>
      have hc := (by decide : ∀ c ∈ ['+', '-'],
        (c.isDigit || c == '+' || c == '-') = true ∧ c ≠ '0') c (hsign c rfl)
      exact ⟨c, _, rfl, hc.1, fun h => absurd h hc.2⟩

theorem read_decimal_eq_none (hsign : ∀ c ∈ sign, c ∈ ['+', '-'])
    (hdigits : ∀ d ∈ first :: more.map Prod.snd, d.isDigit = true)
    (hends : EndsRun isScalarChar rest) :
    Moment.read .strict (sign.toList ++ first :: (spaced more ++ rest)) = none := by
  cases sign with
  | none =>
      refine @read_run_eq_none .strict (first :: spaced more) rest ?_ hends
      refine List.forall_mem_cons.mpr
        ⟨isRunChar_of_isDigit (hdigits first List.mem_cons_self), isRunChar_of_mem_spaced ?_⟩
      exact fun d hd => isRunChar_of_isDigit (hdigits d (List.mem_cons_of_mem first hd))
  | some c => exact read_sign_eq_none .strict (hsign c rfl) _

theorem radixInteger_decimal_eq_none (hsign : ∀ c ∈ sign, c ∈ ['+', '-'])
    (hdigits : ∀ d ∈ first :: more.map Prod.snd, d.isDigit = true)
    (hzero : first = '0' → more = []) (hends : EndsRun isScalarChar rest) {letter : Char}
    (hletter : isScalarChar letter = true) (base : Nat) :
    radixInteger letter base (sign.toList ++ first :: (spaced more ++ rest)) = none := by
  refine bind_of_eq_none ?_
  obtain ⟨c, r, hcons, -, hc⟩ := exists_first hsign (hdigits first List.mem_cons_self)
    (spaced more ++ rest)
  by_cases h : c = '0'
  · obtain ⟨rfl, hfirst⟩ := hc h
    obtain rfl := hzero hfirst
    rw [hfirst]
    refine (bind_of_eq_some (char_cons '0' rest)).trans ?_
    exact bind_of_eq_none (char_eq_none_of_endsRun hends hletter)
  · rw [hcons]
    exact word_cons_eq_none h _ r

end Decimal

end IntegerSpelling

theorem decimalInteger_of_wholeDigits {s left rest ds : List Char} {negative : Bool}
    (hsign : Numeral.sign s = some (negative, left)) (hwhole : wholeDigits left = some (ds, rest))
    {n : Int} (hn : (if negative then -(Numeral.valueOf ds : Int) else Numeral.valueOf ds) = n)
    (hsigned : Document.isSigned64 n = true) : decimalInteger s = some (.integer n, rest) := by
  subst hn
  unfold decimalInteger
  rw [bind_of_eq_some hsign, bind_of_eq_some hwhole]
  exact congrFun (if_pos hsigned) rest

theorem radixInteger_of_digits {s left rest ds : List Char} {r : Radix}
    (hword : word ['0', r.letter] s = some ((), left))
    (hdigits : digits r.isDigit left = some (ds, rest))
    (hsigned : Document.isSigned64 (r.valueOf ds) = true) :
    radixInteger r.letter r.base s = some (.integer (r.valueOf ds), rest) := by
  rw [← r.valueOf_cast ds] at hsigned ⊢
  unfold radixInteger
  rw [bind_of_eq_some hword]
  refine (bind_of_eq_some hdigits).trans ?_
  exact congrFun (if_pos hsigned) rest

/-- Digits in base ten are read as the integer. -/
theorem scalar_decimal {sign : Option Char} {first : Char} {more : List (Bool × Char)}
    (hsign : ∀ c ∈ sign, c ∈ ['+', '-'])
    (hdigits : ∀ d ∈ first :: more.map Prod.snd, d.isDigit = true)
    (hzero : first = '0' → more = []) {n : Int}
    (hn : (if decide (sign = some '-') then -(Numeral.valueOf (first :: more.map Prod.snd) : Int)
      else Numeral.valueOf (first :: more.map Prod.snd)) = n)
    (hsigned : Document.isSigned64 n = true) {rest : List Char} (hrest : EndsValue rest) :
    scalar (sign.toList ++ first :: (spaced more ++ rest)) = some (.integer n, rest) := by
  have hends := hrest.endsScalar
  have hfirst : first.isDigit = true := hdigits first List.mem_cons_self
  obtain ⟨c, r, hcons, hc, -⟩ := IntegerSpelling.exists_first hsign hfirst (spaced more ++ rest)
  have hread := sign_append hsign hfirst (spaced more ++ rest)
  have hwhole := wholeDigits_append hdigits hzero (hrest.endsRun (by decide))
  have hfloat := decimalFloat_eq_none hread hwhole (hrest.endsRun (by decide))
  have hword :=
    wordFloat_eq_none hread (by rintro rfl; cases hfirst) (by rintro rfl; cases hfirst)
  have hradix {letter : Char} (hletter : isScalarChar letter = true) (base : Nat) :=
    IntegerSpelling.radixInteger_decimal_eq_none hsign hdigits hzero hends hletter base
  rw [scalar_eq_integer hcons hc
    (IntegerSpelling.read_decimal_eq_none hsign hdigits hends) hfloat hword]
  unfold integer
  rw [orElse_of_eq_none (hradix (by decide) 16), orElse_of_eq_none (hradix (by decide) 8),
    orElse_of_eq_none (hradix (by decide) 2)]
  exact decimalInteger_of_wholeDigits hread hwhole hn hsigned

section Radix

variable (r : Radix) {first : Char} {more : List (Bool × Char)} {rest : List Char}

/-- A letter behind the zero is no part of a float or of a date-time. -/
theorem Radix.scalar_eq_integer (hdigits : ∀ d ∈ first :: more.map Prod.snd, r.isDigit d = true)
    (hends : EndsRun isScalarChar rest) :
    scalar ('0' :: r.letter :: first :: (spaced more ++ rest)) =
      integer ('0' :: r.letter :: first :: (spaced more ++ rest)) := by
  have hread : Numeral.sign ('0' :: r.letter :: first :: (spaced more ++ rest)) =
      some (false, '0' :: r.letter :: first :: (spaced more ++ rest)) := rfl
  have hwhole : wholeDigits ('0' :: r.letter :: first :: (spaced more ++ rest)) =
      some (['0'], r.letter :: first :: (spaced more ++ rest)) := rfl
  have hfloat := decimalFloat_eq_none hread hwhole (endsRun_cons (by cases r <;> decide) _)
  have hword := wordFloat_eq_none hread (by decide) (by decide)
  have hrun (d : Char) (hd : d ∈ first :: more.map Prod.snd) : isRunChar d = true :=
    r.isRunChar_of_isDigit (hdigits d hd)
  have hmoment :
      Moment.read .strict ('0' :: r.letter :: first :: (spaced more ++ rest)) = none := by
    refine @read_run_eq_none .strict ('0' :: r.letter :: first :: spaced more) rest ?_ hends
    refine List.forall_mem_cons.mpr ⟨by decide, List.forall_mem_cons.mpr
      ⟨by cases r <;> decide, List.forall_mem_cons.mpr ⟨hrun first List.mem_cons_self, ?_⟩⟩⟩
    exact isRunChar_of_mem_spaced fun d hd => hrun d (List.mem_cons_of_mem first hd)
  exact Toml.scalar_eq_integer rfl rfl hmoment hfloat hword

/-- The letter says which of the readers takes the integer. -/
theorem Radix.integer_of_letter {s : List Char} {x : Document × List Char}
    (h : radixInteger r.letter r.base ('0' :: r.letter :: s) = some x) :
    integer ('0' :: r.letter :: s) = some x := by
  have hother (letter : Char) (base : Nat) (hne : r.letter ≠ letter) :
      radixInteger letter base ('0' :: r.letter :: s) = none :=
    bind_of_eq_none ((bind_of_eq_some (char_cons '0' _)).trans (word_cons_eq_none hne _ _))
  unfold integer
  cases r with
  | hexadecimal => exact orElse_of_eq_some h
  | octal =>
      rw [orElse_of_eq_none (hother 'x' 16 (by decide))]
      exact orElse_of_eq_some h
  | binary =>
      rw [orElse_of_eq_none (hother 'x' 16 (by decide)),
        orElse_of_eq_none (hother 'o' 8 (by decide))]
      exact orElse_of_eq_some h

end Radix

/-- **An integer that 64 bits hold with a sign is read as itself**, however it is written. -/
theorem scalar_integer (w : IntegerSpelling) (hsigned : Document.isSigned64 w.value = true)
    {rest : List Char} (hrest : EndsValue rest) :
    scalar (w.text ++ rest) = some (.integer w.value, rest) := by
  cases w with
  | decimal sign first more hsign hdigits hzero =>
      show scalar (sign.toList ++ first :: spaced more ++ rest) = _
      rw [List.append_assoc, List.cons_append]
      exact scalar_decimal hsign hdigits hzero (by simp [IntegerSpelling.value]) hsigned hrest
  | radix r first more hdigits =>
      have hends : EndsRun (fun c => r.isDigit c || c == '_') rest :=
        hrest.endsRun (by cases r <;> decide)
      have hread := digits_append (by cases r <;> decide) hdigits hends
      show scalar ('0' :: r.letter :: first :: (spaced more ++ rest)) = _
      rw [r.scalar_eq_integer hdigits hrest.endsScalar]
      exact r.integer_of_letter (radixInteger_of_digits (by cases r <;> rfl) hread hsigned)

/-! ### Reading date-times -/

/-- A date-time starts with a digit. -/
theorem exists_first_of_moment (w : Moment.Spelling) :
    ∃ c r, w.text = c :: r ∧ c.isDigit = true := by
  have hpadded (places n : Nat) (r : List Char) :
      ∃ c r', (padded places n).toList ++ r = c :: r' ∧ c.isDigit = true := by
    obtain ⟨c, cs, hcons⟩ := List.exists_cons_of_ne_nil (padded_ne_nil places n)
    exact ⟨c, cs ++ r, by rw [hcons, List.cons_append],
      isDigit_of_mem_padded c (hcons ▸ List.mem_cons_self)⟩
  have hdate {d : Date} (hd : d.HasFourDigits) (r : List Char) :
      ∃ c r', d.text.toList ++ r = c :: r' ∧ c.isDigit = true := by
    rw [d.toList_text, Date.yearText_of_hasFourDigits hd, List.append_assoc]
    exact hpadded 4 _ _
  cases w with
  | offsetDateTime d mark c o hd _ => exact hdate hd _
  | localDateTime d mark c hd _ => exact hdate hd _
  | localDate d hd =>
      have h := hdate hd []
      rwa [List.append_nil] at h
  | localTime c => exact hpadded 2 c.hour _

/-- **A date-time is read as the document that a date-time is.** -/
theorem scalar_moment (w : Moment.Spelling) {rest : List Char} (hrest : EndsValue rest) :
    scalar (w.text ++ rest) = some (w.moment.document, rest) := by
  obtain ⟨c, r, hcons, hc⟩ := exists_first_of_moment w
  have hne (d : Char) (hd : d.isDigit = false) : c ≠ d := by
    rintro rfl
    rw [hc] at hd
    cases hd
  have hmoment := Moment.read_append .strict w hrest.endsMoment
  rw [hcons] at hmoment ⊢
  unfold scalar
  rw [List.cons_append,
    orElse_of_eq_none (bind_of_eq_none (quotedText_eq_none (hne _ rfl) (hne _ rfl) _)),
    orElse_of_eq_none (boolean_eq_none (hne _ rfl) (hne _ rfl) _)]
  exact orElse_of_eq_some (bind_of_eq_some hmoment)

/-! ### Reading texts -/

/-- The characters write the text between double quotes. -/
inductive WritesBasic : List Char → List Char → Prop
  | nil : WritesBasic [] []
  | plain {c : Char} {text written : List Char} (hplain : isPlain c = true) (hquote : c ≠ '"')
      (hbackslash : c ≠ '\\') (h : WritesBasic text written) :
      WritesBasic (c :: text) (c :: written)
  | letter {c e : Char} {text written : List Char} (he : escapedChar? e = some c)
      (h : WritesBasic text written) : WritesBasic (c :: text) ('\\' :: e :: written)
  | short {x a b c d : Char} {text written : List Char} (hx : codePoint? [a, b, c, d] = some x)
      (h : WritesBasic text written) :
      WritesBasic (x :: text) ('\\' :: 'u' :: a :: b :: c :: d :: written)
  | long {x a b c d e f g i : Char} {text written : List Char}
      (hx : codePoint? [a, b, c, d, e, f, g, i] = some x) (h : WritesBasic text written) :
      WritesBasic (x :: text)
        ('\\' :: 'U' :: a :: b :: c :: d :: e :: f :: g :: i :: written)

/-- A character that may stand between double quotes without an escape. -/
def isVerbatim (c : Char) : Bool :=
  isPlain c && c != '"' && c != '\\'

/-- Such characters write themselves. -/
theorem writesBasic_verbatim {text : List Char} (h : ∀ c ∈ text, isVerbatim c = true) :
    WritesBasic text text := by
  induction text with
  | nil => exact .nil
  | cons c text ih =>
      have hc := h c List.mem_cons_self
      simp only [isVerbatim, Bool.and_eq_true, bne_iff_ne] at hc
      exact .plain hc.1.1 hc.1.2 hc.2 (ih fun d hd => h d (List.mem_cons_of_mem c hd))

theorem isVerbatim_of_isDigit {c : Char} (h : c.isDigit = true) : isVerbatim c = true := by
  have hrange := toNat_of_isDigit h
  have hquote : c ≠ '"' := by rintro rfl; cases h
  have hbackslash : c ≠ '\\' := by rintro rfl; cases h
  simp [isVerbatim, isPlain, hquote, hbackslash]
  omega

theorem isVerbatim_of_mem_padded {places n : Nat} :
    ∀ c ∈ (padded places n).toList, isVerbatim c = true :=
  fun c hc => isVerbatim_of_isDigit (isDigit_of_mem_padded c hc)

theorem isVerbatim_of_mem_date {d : Date} (h : d.HasFourDigits) :
    ∀ c ∈ d.text.toList, isVerbatim c = true := by
  rw [d.toList_text, Date.yearText_of_hasFourDigits h]
  simp only [List.forall_mem_append, List.forall_mem_cons]
  exact ⟨isVerbatim_of_mem_padded, rfl, isVerbatim_of_mem_padded, rfl, isVerbatim_of_mem_padded⟩

theorem isVerbatim_of_mem_clock (w : Clock.Spelling) : ∀ c ∈ w.text, isVerbatim c = true := by
  unfold Clock.Spelling.text
  simp only [List.forall_mem_append, List.forall_mem_cons]
  refine ⟨isVerbatim_of_mem_padded, rfl, isVerbatim_of_mem_padded, rfl,
    isVerbatim_of_mem_padded, ?_⟩
  cases hfraction : w.fraction with
  | none => exact List.forall_mem_nil _
  | some ds =>
      have hds := (w.fraction_spec ds hfraction).2
      exact List.forall_mem_cons.mpr ⟨rfl, fun c hc => isVerbatim_of_isDigit (hds c hc)⟩

theorem isVerbatim_of_mem_offset (w : Offset.Spelling) : ∀ c ∈ w.text, isVerbatim c = true := by
  cases w with
  | letter c hc =>
      have hletter := (by decide : ∀ c ∈ ['Z', 'z'], isVerbatim c = true) c hc
      exact List.forall_mem_singleton.mpr hletter
  | numeric sign hour minute hsign _ _ =>
      unfold Offset.Spelling.text
      simp only [List.forall_mem_append, List.forall_mem_cons]
      exact ⟨(by decide : ∀ c ∈ ['+', '-'], isVerbatim c = true) sign hsign,
        isVerbatim_of_mem_padded, rfl, isVerbatim_of_mem_padded⟩

/-- A date-time needs no escape. -/
theorem isVerbatim_of_mem_moment (w : Moment.Spelling) : ∀ c ∈ w.text, isVerbatim c = true := by
  have hmark {mark : Char} (h : mark ∈ Moment.marks) : isVerbatim mark = true :=
    (by decide : ∀ c ∈ Moment.marks, isVerbatim c = true) mark h
  cases w with
  | offsetDateTime d mark c o hd h =>
      unfold Moment.Spelling.text
      simp only [List.forall_mem_append, List.forall_mem_cons]
      exact ⟨isVerbatim_of_mem_date hd, hmark h, isVerbatim_of_mem_clock c,
        isVerbatim_of_mem_offset o⟩
  | localDateTime d mark c hd h =>
      unfold Moment.Spelling.text
      simp only [List.forall_mem_append, List.forall_mem_cons]
      exact ⟨isVerbatim_of_mem_date hd, hmark h, isVerbatim_of_mem_clock c⟩
  | localDate d hd => exact isVerbatim_of_mem_date hd
  | localTime c => exact isVerbatim_of_mem_clock c

theorem WritesBasic.basicTail_append {text written : List Char} (h : WritesBasic text written)
    (rest : List Char) : basicTail (written ++ '"' :: rest) = some (text, rest) := by
  induction h with
  | nil => rfl
  | plain hplain hquote hbackslash _ ih =>
      unfold basicTail
      simp_all [prepend]
  | @letter c e text written he _ ih =>
      have hu : e ≠ 'u' ∧ e ≠ 'U' := by
        constructor <;> rintro rfl <;> cases he
      simp [basicTail, he, ih, hu.1, hu.2, prepend]
  | short hx _ ih => simp [basicTail, hx, ih, prepend]
  | long hx _ ih => simp [basicTail, hx, ih, prepend]

/-- Three quotes never open a text on one line. -/
theorem WritesBasic.not_tripled {text written : List Char} (h : WritesBasic text written)
    {rest : List Char} (hrest : EndsValue rest) (r : List Char) :
    written ++ '"' :: rest ≠ '"' :: '"' :: r := by
  intro heq
  cases h with
  | nil =>
      have hquote := hrest.head '"' r (List.cons.inj heq).2
      exact absurd hquote (by decide)
  | plain _ hquote _ _ => exact hquote (List.head_eq_of_cons_eq heq)
  | letter _ _ | short _ _ | long _ _ => cases heq

/-- **A text between double quotes is read as itself.** -/
theorem scalar_text {text written : List Char} (h : WritesBasic text written) {rest : List Char}
    (hrest : EndsValue rest) :
    scalar ('"' :: (written ++ '"' :: rest)) = some (.text (String.ofList text), rest) := by
  have hline : quotedText ('"' :: (written ++ '"' :: rest)) = some (String.ofList text, rest) := by
    unfold quotedText
    split
    · exact absurd (List.cons.inj ‹_›).2 (h.not_tripled hrest _)
    · cases List.head_eq_of_cons_eq ‹_›
    · show (basicTail (written ++ '"' :: rest)).map _ = _
      rw [h.basicTail_append]
      rfl
  unfold scalar
  exact orElse_of_eq_some (bind_of_eq_some hline)

end SeriesQuery.Toml
