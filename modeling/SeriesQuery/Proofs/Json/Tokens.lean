/-
Reading a token.

A token is read to its end or not at all.  The characters of a word are looked at by readers that
go no further than its end, so what they leave, if anything, is the rest of the word.  A quoted
token ends at its closing quote whatever stands behind it: an escape cannot reach over the quote,
because no escape has a quote among its digits.
-/
import SeriesQuery.Proofs.Json.Syntax
import SeriesQuery.Proofs.Text.Taking

namespace SeriesQuery.Json

open Text Text.Reader

/-! ### The tail of a quoted text, one part at a time -/

/-- A number in hexadecimal digits has no other character in it. -/
theorem hexValue?_eq_none {c : Char} {ds : List Char} (hc : hexDigit? c = none) (h : c ∈ ds) :
    hexValue? ds = none := by
  unfold hexValue?
  generalize 0 = n
  induction ds generalizing n with
  | nil => cases h
  | cons d ds ih =>
      rw [List.foldlM_cons]
      rcases List.mem_cons.mp h with rfl | h
      · rw [hc]
        rfl
      · cases hexDigit? d with
        | none => rfl
        | some digit => exact ih h _

/-- A character in front of what a tail reads. -/
def prepend (c : Char) (x : List Char × List Char) : List Char × List Char :=
  (c :: x.1, x.2)

theorem textTail_unicode (pending : Option Nat) (a b c d : Char) (r : List Char) :
    textTail pending ('\\' :: 'u' :: a :: b :: c :: d :: r) =
      (hexValue? [a, b, c, d]).bind fun n =>
        match pending with
        | some high =>
          if isLowSurrogate n then (textTail none r).map (prepend (ofSurrogates high n)) else none
        | none =>
          if isHighSurrogate n then textTail (some n) r
          else if isLowSurrogate n then none
          else (textTail none r).map (prepend (Char.ofNat n)) := by
  rw [textTail.eq_1]
  cases hexValue? [a, b, c, d] with
  | none => rfl
  | some n => cases pending <;> cases textTail none r <;> rfl

theorem textTail_unicode_of_quote {s : List Char} (pending : Option Nat) (h : '"' ∈ s.take 4) :
    textTail pending ('\\' :: 'u' :: s) = none := by
  match s with
  | a :: b :: c :: d :: r =>
      have hn : hexValue? [a, b, c, d] = none := hexValue?_eq_none rfl h
      rw [textTail_unicode, hn]
      rfl
  | [] | [a] | [a, b] | [a, b, c] => cases pending <;> rfl

theorem textTail_escape {c : Char} (hc : c ≠ 'u') (r : List Char) :
    textTail none ('\\' :: c :: r) =
      (escapedChar? c).bind fun e => (textTail none r).map (prepend e) := by
  rw [textTail.eq_5 c r fun _ _ _ _ _ h => absurd h hc]
  cases escapedChar? c with
  | none => rfl
  | some e => cases textTail none r <;> rfl

theorem textTail_plain {c : Char} (hquote : c ≠ '"') (hbackslash : c ≠ '\\') (r : List Char) :
    textTail none (c :: r) =
      if c.toNat < 0x20 then none else (textTail none r).map (prepend c) := by
  rw [textTail.eq_6 c r (fun _ _ _ _ _ h => absurd h hbackslash) hquote
    fun _ _ h => absurd h hbackslash]
  have hc : (c == '\\') = false := beq_false_of_ne hbackslash
  rw [hc, Bool.or_false]
  by_cases h : c.toNat < 0x20
  · rw [if_pos h, if_pos (decide_eq_true h)]
  · rw [if_neg h, if_neg (by simpa using h)]
    cases textTail none r <;> rfl

/-- Behind the first half of a pair stands the escape of its second half, or there is no text. -/
theorem textTail_pending (high : Nat) {s : List Char} (h : ∀ r, s ≠ '\\' :: 'u' :: r) :
    textTail (some high) s = none :=
  textTail.eq_2 s high fun _ _ _ _ _ hs => h _ hs

/-! ### Quoted tokens -/

theorem isBody_escape (c : Char) (r : List Char) : isBody ('\\' :: c :: r) = isBody r :=
  rfl

theorem isBody_plain {c : Char} (hquote : c ≠ '"') (hbackslash : c ≠ '\\') (r : List Char) :
    isBody (c :: r) = isBody r := by
  rw [isBody.eq_3 c r fun _ _ h => absurd h hbackslash]
  simp [hquote, hbackslash]

/-- The digits of an escape are no quotes and no backslashes. -/
theorem isBody_of_digits {ds r : List Char} {n : Nat} (hn : hexValue? ds = some n) :
    isBody (ds ++ r) = isBody r := by
  have hds : ∀ c ∈ ds, c ≠ '"' ∧ c ≠ '\\' := by
    intro c hc
    refine ⟨?_, ?_⟩
    all_goals
      rintro rfl
      rw [hexValue?_eq_none rfl hc] at hn
      cases hn
  clear hn
  induction ds with
  | nil => rfl
  | cons c ds ih =>
      obtain ⟨hquote, hbackslash⟩ := hds c List.mem_cons_self
      rw [List.cons_append, isBody_plain hquote hbackslash]
      exact ih fun d hd => hds d (List.mem_cons_of_mem c hd)

/-- Reading the body comes to an end at the quote behind it or fails, whatever follows. -/
def EndsAtQuote (pending : Option Nat) (body : List Char) : Prop :=
  ∃ text : Option (List Char), ∀ rest,
    textTail pending (body ++ '"' :: rest) = text.map fun cs => (cs, rest)

theorem EndsAtQuote.fails {pending : Option Nat} {body : List Char}
    (h : ∀ rest, textTail pending (body ++ '"' :: rest) = none) : EndsAtQuote pending body :=
  ⟨none, h⟩

/-- A part that stands for one character, in front of a body. -/
theorem EndsAtQuote.behind {pending : Option Nat} {body r : List Char} {c : Char}
    (h : EndsAtQuote none r)
    (hpart : ∀ rest, textTail pending (body ++ '"' :: rest) =
      (textTail none (r ++ '"' :: rest)).map (prepend c)) : EndsAtQuote pending body := by
  obtain ⟨text, htext⟩ := h
  refine ⟨text.map (c :: ·), fun rest => ?_⟩
  rw [hpart, htext]
  cases text <;> rfl

theorem endsAtQuote_unicode (pending : Option Nat) {a b c d : Char} {r : List Char}
    (hr : ∀ n, hexValue? [a, b, c, d] = some n → ∀ pending, EndsAtQuote pending r) :
    EndsAtQuote pending ('\\' :: 'u' :: a :: b :: c :: d :: r) := by
  have hread (rest : List Char) := textTail_unicode pending a b c d (r ++ '"' :: rest)
  cases hn : hexValue? [a, b, c, d] with
  | none =>
      simp only [hn, Option.bind_none] at hread
      exact .fails hread
  | some n =>
      simp only [hn, Option.bind_some] at hread
      cases pending with
      | some high =>
          cases hlow : isLowSurrogate n with
          | true =>
              simp only [hlow, if_true] at hread
              exact (hr n hn none).behind hread
          | false =>
              simp only [hlow, Bool.false_eq_true, if_false] at hread
              exact .fails hread
      | none =>
          cases hhigh : isHighSurrogate n with
          | true =>
              simp only [hhigh, if_true] at hread
              obtain ⟨text, htext⟩ := hr n hn (some n)
              exact ⟨text, fun rest => (hread rest).trans (htext rest)⟩
          | false =>
              cases hlow : isLowSurrogate n with
              | true =>
                  simp only [hhigh, hlow, Bool.false_eq_true, if_false, if_true] at hread
                  exact .fails hread
              | false =>
                  simp only [hhigh, hlow, Bool.false_eq_true, if_false] at hread
                  exact (hr n hn none).behind hread

theorem endsAtQuote_escape (pending : Option Nat) {c : Char} {r : List Char} (hc : c ≠ 'u')
    (hr : EndsAtQuote none r) : EndsAtQuote pending ('\\' :: c :: r) := by
  cases pending with
  | some high =>
      refine .fails fun rest => textTail_pending high fun s hs => ?_
      exact hc (List.head_eq_of_cons_eq (List.tail_eq_of_cons_eq hs))
  | none =>
      have hread (rest : List Char) := textTail_escape hc (r ++ '"' :: rest)
      cases he : escapedChar? c with
      | none =>
          simp only [he, Option.bind_none] at hread
          exact .fails hread
      | some e =>
          simp only [he, Option.bind_some] at hread
          exact hr.behind hread

theorem endsAtQuote_plain (pending : Option Nat) {c : Char} {r : List Char} (hquote : c ≠ '"')
    (hbackslash : c ≠ '\\') (hr : EndsAtQuote none r) : EndsAtQuote pending (c :: r) := by
  cases pending with
  | some high =>
      refine .fails fun rest => textTail_pending high fun s hs => ?_
      exact hbackslash (List.head_eq_of_cons_eq hs)
  | none =>
      have hread (rest : List Char) := textTail_plain hquote hbackslash (r ++ '"' :: rest)
      by_cases hcontrol : c.toNat < 0x20
      · simp only [if_pos hcontrol] at hread
        exact .fails hread
      · simp only [if_neg hcontrol] at hread
        exact hr.behind hread

/-- How a body begins. -/
inductive BodyStart : List Char → Prop
  | nil : BodyStart []
  | unicode (a b c d : Char) (r : List Char) : BodyStart ('\\' :: 'u' :: a :: b :: c :: d :: r)
  | unicodeShort {s : List Char} (h : s.length < 4) : BodyStart ('\\' :: 'u' :: s)
  | escape {c : Char} {r : List Char} (hc : c ≠ 'u') : BodyStart ('\\' :: c :: r)
  | plain {c : Char} {r : List Char} (hquote : c ≠ '"') (hbackslash : c ≠ '\\') :
      BodyStart (c :: r)

theorem bodyStart_of_isBody {body : List Char} (h : isBody body = true) : BodyStart body := by
  cases body with
  | nil => exact .nil
  | cons c r =>
      by_cases hbackslash : c = '\\'
      · subst hbackslash
        cases r with
        | nil => cases h
        | cons c r =>
            by_cases hc : c = 'u'
            · subst hc
              match r with
              | a :: b :: c :: d :: r => exact .unicode a b c d r
              | [] | [_] | [_, _] | [_, _, _] => exact .unicodeShort (by simp)
            · exact .escape hc
      · rw [isBody.eq_3 c r fun _ _ h => absurd h hbackslash] at h
        simp only [Bool.and_eq_true, bne_iff_ne] at h
        exact .plain h.1.2 hbackslash

/-- A quoted token is read to its closing quote or not at all, whatever follows. -/
theorem endsAtQuote_of_isBody (pending : Option Nat) {body : List Char}
    (h : isBody body = true) : EndsAtQuote pending body := by
  -- An escape of a code unit takes six characters at once, so the induction is on the length.
  induction hlength : body.length using Nat.strongRecOn generalizing pending body with
  | _ length ih =>
      have hshorter {r : List Char} (hr : isBody r = true) (hlt : r.length < body.length)
          (pending : Option Nat) : EndsAtQuote pending r :=
        ih r.length (hlength ▸ hlt) pending hr rfl
      cases bodyStart_of_isBody h with
      | nil =>
          cases pending with
          | none => exact ⟨some [], fun _ => rfl⟩
          | some high => exact .fails fun _ => rfl
      | unicode a b c d r =>
          refine endsAtQuote_unicode pending fun n hn => hshorter ?_ ?_
          · rw [isBody_escape] at h
            rwa [← isBody_of_digits hn]
          · simp only [List.length_cons]
            omega
      | @unicodeShort s hs =>
          refine .fails fun rest => textTail_unicode_of_quote pending ?_
          exact List.mem_take_iff_getElem.mpr ⟨s.length, by simp; omega, by simp⟩
      | @escape c r hc =>
          have hr : isBody r = true := h
          refine endsAtQuote_escape pending hc (hshorter hr ?_ none)
          simp only [List.length_cons]
          omega
      | @plain c r hquote hbackslash =>
          rw [isBody_plain hquote hbackslash] at h
          exact endsAtQuote_plain pending hquote hbackslash (hshorter h (by simp) none)

namespace Quoted

/-- The text of a quoted token, and then what stands behind it. -/
theorem text_append (q : Quoted) (rest : List Char) :
    q.text ++ rest = '"' :: (q.body ++ '"' :: rest) := by
  unfold text
  rw [List.cons_append, List.append_assoc, List.singleton_append]

/-- A quoted token is read as the same text whatever stands behind it. -/
theorem quotedText_append (q : Quoted) (rest : List Char) :
    quotedText (q.text ++ rest) = q.read.map fun s => (s, rest) := by
  obtain ⟨text, htext⟩ := endsAtQuote_of_isBody none q.closed
  have hquoted (rest : List Char) :
      quotedText (q.text ++ rest) = (text.map String.ofList).map fun s => (s, rest) := by
    rw [text_append]
    show (textTail none (q.body ++ '"' :: rest)).bind _ = _
    rw [htext]
    cases text <;> rfl
  have hread : q.read = text.map String.ofList := by
    unfold read Reader.whole
    have h := hquoted []
    rw [List.append_nil] at h
    rw [h]
    cases text <;> rfl
  rw [hread, hquoted]

end Quoted

/-! ### Words -/

theorem isWordChar_of_isDigit {c : Char} (h : c.isDigit = true) : isWordChar c = true := by
  have hother : c ∉ [' ', '\t', '\n', '\r', '[', ']', '\x7b', '\x7d', ',', ':', '"'] := by
    intro hc
    simp only [List.mem_cons, List.not_mem_nil, or_false] at hc
    rcases hc with rfl | rfl | rfl | rfl | rfl | rfl | rfl | rfl | rfl | rfl | rfl <;> cases h
  simp only [List.mem_cons, List.not_mem_nil, or_false, not_or] at hother
  simp [isWordChar, isSpace, isMark, hother]

theorem wholeDigits_eq :
    wholeDigits = ((do Reader.char '0'; return ['0']) <|> Reader.span1 Char.isDigit) := by
  funext s
  rw [orElse_apply, bind_apply]
  cases s with
  | nil => rfl
  | cons c s =>
      by_cases hc : c = '0'
      · subst hc
        rfl
      · rw [wholeDigits.eq_2 (c :: s) fun r h => hc (List.head_eq_of_cons_eq h), Reader.char,
          if_neg hc]
        rfl

theorem sign_eq :
    Numeral.sign = ((do Reader.char '-'; return true) <|> (do Reader.char '+'; return false) <|>
      return false) := by
  funext s
  rw [orElse_apply, orElse_apply, bind_apply, bind_apply]
  cases s with
  | nil => rfl
  | cons c s =>
      by_cases hminus : c = '-'
      · subst hminus
        rfl
      · by_cases hplus : c = '+'
        · subst hplus
          rfl
        · rw [Numeral.sign.eq_3 (c :: s) (fun r h => hminus (List.head_eq_of_cons_eq h))
            fun r h => hplus (List.head_eq_of_cons_eq h), Reader.char, if_neg hminus, Reader.char,
            if_neg hplus]
          rfl

theorem local_wholeDigits : Local isWordChar wholeDigits := by
  rw [wholeDigits_eq]
  exact ((Local.char rfl).bind fun _ => .pure _).orElse (.span1 fun _ => isWordChar_of_isDigit)

theorem local_signedDigits : Local isWordChar Numeral.signedDigits := by
  unfold Numeral.signedDigits
  rw [sign_eq]
  have hsign : Local isWordChar ((do Reader.char '-'; return true) <|>
      (do Reader.char '+'; return false) <|> return false : Reader Bool) :=
    ((Local.char rfl).bind fun _ => .pure _).orElse
      (((Local.char rfl).bind fun _ => .pure _).orElse (.pure _))
  exact hsign.bind fun _ => (Local.span1 fun _ => isWordChar_of_isDigit).bind fun _ => .pure _

theorem local_fractionDigits : Local isWordChar fractionDigits :=
  (Local.char rfl).bind fun _ => .span1 fun _ => isWordChar_of_isDigit

theorem local_exponent : Local isWordChar exponent := by
  refine (Local.satisfying ?_).bind fun _ => local_signedDigits
  intro c hc
  simp only [Bool.or_eq_true, beq_iff_eq] at hc
  rcases hc with rfl | rfl <;> rfl

/-- A number behind its whole digits. -/
def numberTail (negative : Bool) (whole : List Char) : Reader Document := do
  let fraction ← Reader.optional fractionDigits
  let exponent ← Reader.optional exponent
  match numberOf? negative whole fraction exponent with
  | some d => return d
  | none => failure

theorem number_eq :
    number = (Reader.optional (Reader.char '-') >>= fun minus =>
      wholeDigits >>= fun whole => numberTail minus.isSome whole) :=
  rfl

theorem local_numberTail (negative : Bool) (whole : List Char) :
    Local isWordChar (numberTail negative whole) := by
  refine local_fractionDigits.optional.bind fun fraction =>
    local_exponent.optional.bind fun exponent => ?_
  split
  · exact .pure _
  · exact .failure

theorem local_number : Local isWordChar number := by
  rw [number_eq]
  exact (Local.char rfl).optional.bind fun minus => local_wholeDigits.bind fun whole =>
    local_numberTail minus.isSome whole

/-- What a word is read as: a number or a keyword. -/
def unquoted : Reader Document :=
  number
  <|> (do Reader.word ['n', 'u', 'l', 'l']; return .null)
  <|> (do Reader.word ['t', 'r', 'u', 'e']; return .bool true)
  <|> (do Reader.word ['f', 'a', 'l', 's', 'e']; return .bool false)

theorem scalar_eq : scalar = ((do return .text (← quotedText)) <|> unquoted) :=
  rfl

theorem local_unquoted : Local isWordChar unquoted := by
  have hword {w : List Char} (hw : w.all isWordChar = true) (d : Document) :
      Local isWordChar (do Reader.word w; return d) :=
    (Local.word hw).bind fun _ => .pure d
  exact local_number.orElse ((hword rfl _).orElse ((hword rfl _).orElse (hword rfl _)))

end SeriesQuery.Json
