/-
Terms show where they end.

A plain term is a name with or without a direction, a whole number, a time window, or the call of
a function with terms in it.  Its first character tells which of these it is, and what follows
tells the rest.  Names and aliases stand between quotes, so a comma or a parenthesis in them is
never one of a call.  Each argument is followed by a comma or by the parenthesis that closes its
call, and a term ends there whatever it is; so the arguments can be told one after the other, and
at the closing parenthesis there are no more.
-/
import SeriesQuery.Proofs.Query.Injective

namespace SeriesQuery

open Text Phrases

/-! ### Terms -/

/-- A character that function names are written with. -/
def isCapital (c : Char) : Bool :=
  c.isUpper || c == '_'

/-- The name of a function as a call writes it. -/
structure FunctionName where
  text : String
  /-- There is something to the name. -/
  ne_empty : text ≠ ""
  /-- There are only capitals and underscores in it. -/
  all_capitals : text.toList.all isCapital = true

/-- A term with its durations and directions, in which names and aliases are written between
    quotes. -/
inductive PlainTerm where
  | name (s : String) (direction : Option SortDirection)
  | int (n : Int)
  | window (interval : Duration) (offset : Option Duration)
  | call (function : FunctionName) (args : List PlainTerm) (aliasName : Option String)

namespace PlainTerm

mutual

/-- The term as it stands in a statement. -/
def text : PlainTerm → String
  | name s direction => Fragment.sortText (s, direction)
  | int n => toString n
  | window interval offset =>
    Fragment.callText "time" (interval.token :: offset.toList.map Duration.token) none
  | call function args aliasName =>
    Fragment.callText function.text (texts args) (aliasName.map Identifier.quote)

/-- The terms as they stand in a statement. -/
def texts : List PlainTerm → List String
  | [] => []
  | t :: ts => t.text :: texts ts

end

/-! ### Calls -/

/-- Arguments behind a comma each, and the closing parenthesis. -/
def writeFurther (args : List String) : List Char :=
  (args.flatMap fun t => ", ".toList ++ t.toList) ++ ")".toList

theorem writeFurther_cons (t : String) (ts : List String) :
    writeFurther (t :: ts) = ", ".toList ++ (t.toList ++ writeFurther ts) := by
  unfold writeFurther
  rw [List.flatMap_cons, List.append_assoc, List.append_assoc]

/-- Arguments with commas between them, and the closing parenthesis. -/
def writeArgs : List String → List Char
  | [] => ")".toList
  | t :: ts => t.toList ++ writeFurther ts

theorem toList_args (args : List String) :
    (", ".intercalate args).toList ++ ")".toList = writeArgs args := by
  cases args with
  | nil => rfl
  | cons t ts =>
      rw [toList_intercalate_cons, List.append_assoc]
      rfl

/-- An alias behind its keyword. -/
def writeAlias (aliasName : Option String) : List Char :=
  aliasName.elim [] fun a => " AS ".toList ++ (Identifier.quote a).toList

theorem toList_callText (function : String) (args : List String) (aliasName : Option String) :
    (Fragment.callText function args (aliasName.map Identifier.quote)).toList =
      function.toList ++ "(".toList ++ (writeArgs args ++ writeAlias aliasName) := by
  unfold Fragment.callText
  rw [← toList_args]
  cases aliasName <;> simp [writeAlias]

theorem toList_call_append (function : FunctionName) (args : List PlainTerm)
    (aliasName : Option String) (r : List Char) :
    (call function args aliasName).text.toList ++ r =
      (function.text.toList ++ "(".toList) ++ (writeArgs (texts args) ++
        (writeAlias aliasName ++ r)) := by
  unfold text
  rw [toList_callText]
  simp only [List.append_assoc]

/-- What may follow a term: a comma, a closing parenthesis, or nothing. -/
def EndsArgument : List Char → Prop :=
  EndsRun fun c => c != ',' && c != ')'

theorem endsArgument_writeFurther (args : List String) (r : List Char) :
    EndsArgument (writeFurther args ++ r) := by
  cases args with
  | nil => exact endsRun_cons (by decide) _
  | cons t ts => exact endsRun_cons (by decide) _

theorem EndsArgument.ne_cons {r : List Char} (h : EndsArgument r) {c : Char} (hcomma : c ≠ ',')
    (hclose : c ≠ ')') (x : List Char) : r ≠ c :: x := by
  intro hr
  simpa [hcomma, hclose] using h c x hr

/-- Where a term ends, a run without commas and closing parentheses does. -/
theorem EndsArgument.endsRun {r : List Char} (h : EndsArgument r) {p : Char → Bool}
    (hcomma : p ',' = false) (hclose : p ')' = false) : EndsRun p r := by
  refine h.mono fun c hc => ?_
  rw [Bool.and_eq_true, bne_iff_ne, bne_iff_ne]
  constructor
  · rintro rfl
    exact Bool.false_ne_true (hcomma.symm.trans hc)
  · rintro rfl
    exact Bool.false_ne_true (hclose.symm.trans hc)

theorem EndsArgument.endsTerm {r : List Char} (h : EndsArgument r) : EndsTerm r :=
  ⟨h.endsRun rfl rfl, fun _ _ => h.ne_cons (by decide) (by decide) _⟩

/-! ### What is not a call -/

theorem selfDelimiting_token :
    SelfDelimiting (fun d : Duration => d.token.toList) EndsArgument := by
  refine SelfDelimiting.word (fun d => List.all_eq_true.mpr fun c hc => ?_)
    Duration.token_injective
  rw [Bool.and_eq_true, bne_iff_ne, bne_iff_ne]
  constructor <;> rintro rfl
  · exact d.not_mem_token (by decide) (by intro u; cases u <;> decide) hc
  · exact d.not_mem_token (by decide) (by intro u; cases u <;> decide) hc

/-- An offset behind its interval. -/
def writeOffset (offset : Option Duration) : List Char :=
  offset.elim [] fun d => ", ".toList ++ d.token.toList

/-- What stands between the parentheses of a time window. -/
def writeWindow (x : Duration × Option Duration) : List Char :=
  x.1.token.toList ++ writeOffset x.2

theorem selfDelimiting_window :
    SelfDelimiting (fun x => writeWindow x ++ ")".toList) (fun _ => True) := by
  have hoffset := (selfDelimiting_token.behind ", ".toList).optional
  have hparts := selfDelimiting_token.seq hoffset fun o r hr => by
    cases o with
    | none => exact hr.1
    | some d => exact endsRun_cons (by decide) _
  have hends : ∀ r, EndsArgument (")".toList ++ r) := endsRun_cons (by decide)
  refine hparts.closed fun r => ⟨hends r, fun d x heq => ?_⟩
  exact absurd (List.cons.inj heq).1 (by decide)

theorem toList_window (interval : Duration) (offset : Option Duration) :
    (window interval offset).text.toList =
      "time(".toList ++ (writeWindow (interval, offset) ++ ")".toList) := by
  have hargs : writeArgs (interval.token :: offset.toList.map Duration.token) =
      writeWindow (interval, offset) ++ ")".toList := by
    cases offset <;> simp [writeArgs, writeFurther, writeWindow, writeOffset]
  unfold text
  rw [← Option.map_none, toList_callText, hargs]
  simp [writeAlias]

/-! ### The first character -/

/-- What a term can be. -/
inductive Kind where
  | name
  | int
  | window
  | call

/-- What the term is. -/
def kind : PlainTerm → Kind
  | name _ _ => .name
  | int _ => .int
  | window _ _ => .window
  | call _ _ _ => .call

/-- What a term is that begins with the character. -/
def Kind.ofFirst? (c : Char) : Option Kind :=
  if c == '"' then some .name
  else if c == 't' then some .window
  else if c.isDigit || c == '-' then some .int
  else if isCapital c then some .call
  else none

theorem Kind.ofFirst?_of_isDigit {c : Char} (h : c.isDigit = true) :
    ofFirst? c = some .int := by
  have hquote : c ≠ '"' := by
    rintro rfl
    cases h
  have ht : c ≠ 't' := by
    rintro rfl
    cases h
  simp [ofFirst?, hquote, ht, h]

theorem Kind.ofFirst?_of_isCapital {c : Char} (h : isCapital c = true) :
    ofFirst? c = some .call := by
  have hother : ∀ d, isCapital d = false → c ≠ d := by
    rintro d hd rfl
    rw [hd] at h
    cases h
  have hdigit : c.isDigit = false := by
    refine Bool.eq_false_iff.mpr fun hc => ?_
    have hrange := toNat_of_isDigit hc
    rcases Bool.or_eq_true_iff.mp h with hupper | hline
    · have hletter := toNat_of_isUpper hupper
      omega
    · rw [eq_of_beq hline] at hc
      cases hc
  simp [ofFirst?, hother '"' (by decide), hother 't' (by decide), hother '-' (by decide), hdigit, h]

/-- The first character tells what a term is, whatever follows the term. -/
theorem exists_first (t : PlainTerm) :
    ∃ c cs, t.text.toList = c :: cs ∧ Kind.ofFirst? c = some t.kind := by
  cases t with
  | name s direction =>
      unfold text Fragment.sortText
      rw [String.toList_append, Identifier.toList_quote]
      exact ⟨_, _, rfl, rfl⟩
  | int n =>
      unfold text
      cases n with
      | ofNat n =>
          obtain ⟨c, cs, hn, hc⟩ := exists_first_digit n
          exact ⟨c, cs, hn, Kind.ofFirst?_of_isDigit hc⟩
      | negSucc n => exact ⟨_, _, toList_negSucc n, rfl⟩
  | window interval offset =>
      rw [toList_window]
      exact ⟨_, _, rfl, rfl⟩
  | call function args aliasName =>
      obtain ⟨f, hne, hcapitals⟩ := function
      unfold text
      rw [toList_callText, List.append_assoc]
      cases hf : f.toList with
      | nil => exact absurd (String.toList_inj.mp (hf.trans rfl)) hne
      | cons c cs =>
          rw [hf, List.all_cons, Bool.and_eq_true] at hcapitals
          exact ⟨c, _, rfl, Kind.ofFirst?_of_isCapital hcapitals.1⟩

theorem kind_eq {t u : PlainTerm} {r s : List Char}
    (h : t.text.toList ++ r = u.text.toList ++ s) : t.kind = u.kind := by
  obtain ⟨c, cs, ht, hc⟩ := t.exists_first
  obtain ⟨d, ds, hu, hd⟩ := u.exists_first
  rw [ht, hu] at h
  rw [(List.cons.inj h).1, hd] at hc
  exact (Option.some.inj hc).symm

theorem ne_close (t : PlainTerm) (r s : List Char) :
    t.text.toList ++ r ≠ ")".toList ++ s := by
  obtain ⟨c, cs, ht, hc⟩ := t.exists_first
  intro heq
  rw [ht] at heq
  cases (List.cons.inj heq).1
  cases hc

/-! ### Telling terms apart -/

theorem selfDelimiting_function :
    SelfDelimiting (fun f : FunctionName => f.text.toList ++ "(".toList) (fun _ => True) := by
  refine (SelfDelimiting.word (fun f => f.all_capitals) ?_).closed (endsRun_cons (by decide))
  rintro ⟨f, _, _⟩ ⟨g, _, _⟩ rfl
  rfl

theorem selfDelimiting_alias : SelfDelimiting writeAlias EndsArgument := by
  have halias := (Identifier.selfDelimiting_quote.behind " AS ".toList).optional
  exact halias.mono fun r hr => ⟨trivial, fun a x => hr.ne_cons (by decide) (by decide) _⟩

-- By induction on the first of the terms, and on its arguments: both terms are of one kind, and
-- what follows an argument ends it whatever the argument is.
mutual

/-- The term and the end of it can be told from the text. -/
theorem eq_of_text_append : ∀ (t : PlainTerm) ⦃u : PlainTerm⦄ ⦃r s : List Char⦄,
    EndsArgument r → EndsArgument s → t.text.toList ++ r = u.text.toList ++ s → t = u ∧ r = s
  | name x d => by
    intro u r s hr hs heq
    have hkind := kind_eq heq
    cases u with
    | name y e =>
        obtain ⟨hsame, hrs⟩ := selfDelimiting_sortText hr.endsTerm hs.endsTerm heq
        cases hsame
        exact ⟨rfl, hrs⟩
    | int | window | call => cases hkind
  | int m => by
    intro u r s hr hs heq
    have hkind := kind_eq heq
    cases u with
    | int n =>
        obtain ⟨rfl, hrs⟩ := selfDelimiting_int (hr.endsRun rfl rfl) (hs.endsRun rfl rfl) heq
        exact ⟨rfl, hrs⟩
    | name | window | call => cases hkind
  | window interval offset => by
    intro u r s hr hs heq
    have hkind := kind_eq heq
    cases u with
    | window interval' offset' =>
        rw [toList_window, toList_window] at heq
        obtain ⟨hsame, hrs⟩ := selfDelimiting_window.behind "time(".toList trivial trivial heq
        cases hsame
        exact ⟨rfl, hrs⟩
    | name | int | call => cases hkind
  | call f args a => by
    intro u r s hr hs heq
    have hkind := kind_eq heq
    cases u with
    | call f' args' a' =>
        rw [toList_call_append, toList_call_append] at heq
        obtain ⟨rfl, hargs⟩ := selfDelimiting_function trivial trivial heq
        obtain ⟨rfl, halias⟩ := eq_of_args_append hargs
        obtain ⟨rfl, hrs⟩ := selfDelimiting_alias hr hs halias
        exact ⟨rfl, hrs⟩
    | name | int | window => cases hkind

/-- Each argument ends before a comma or the closing parenthesis. -/
theorem eq_of_args_append : ∀ {ts us : List PlainTerm} {r s : List Char},
    writeArgs (texts ts) ++ r = writeArgs (texts us) ++ s → ts = us ∧ r = s
  | [], [], r, s, heq => ⟨rfl, List.append_cancel_left heq⟩
  | [], u :: us, r, s, heq => by
    simp only [texts, writeArgs, List.append_assoc] at heq
    exact absurd heq.symm (u.ne_close _ r)
  | t :: ts, [], r, s, heq => by
    simp only [texts, writeArgs, List.append_assoc] at heq
    exact absurd heq (t.ne_close _ s)
  | t :: ts, u :: us, r, s, heq => by
    simp only [texts, writeArgs, List.append_assoc] at heq
    obtain ⟨rfl, hfurther⟩ := eq_of_text_append t (endsArgument_writeFurther _ r)
      (endsArgument_writeFurther _ s) heq
    obtain ⟨rfl, hrs⟩ := eq_of_further_append hfurther
    exact ⟨rfl, hrs⟩

/-- So does each further argument, and at the parenthesis there are no more. -/
theorem eq_of_further_append : ∀ {ts us : List PlainTerm} {r s : List Char},
    writeFurther (texts ts) ++ r = writeFurther (texts us) ++ s → ts = us ∧ r = s
  | [], [], r, s, heq => ⟨rfl, List.append_cancel_left heq⟩
  | [], u :: us, r, s, heq => absurd (List.cons.inj heq).1 (by decide)
  | t :: ts, [], r, s, heq => absurd (List.cons.inj heq).1 (by decide)
  | t :: ts, u :: us, r, s, heq => by
    simp only [texts, writeFurther_cons, List.append_assoc] at heq
    obtain ⟨rfl, hfurther⟩ := eq_of_text_append t (endsArgument_writeFurther _ r)
      (endsArgument_writeFurther _ s) (List.append_cancel_left heq)
    obtain ⟨rfl, hrs⟩ := eq_of_further_append hfurther
    exact ⟨rfl, hrs⟩

end

/-- **The text of a term shows the term.** -/
theorem text_injective : Function.Injective text := by
  intro t u h
  exact (eq_of_text_append t (endsRun_nil _) (endsRun_nil _)
    (congrArg (String.toList · ++ []) h)).1

end PlainTerm

end SeriesQuery
