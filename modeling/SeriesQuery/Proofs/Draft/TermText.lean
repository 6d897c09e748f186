/-
The text of a term tells the term.

A draft whose names and aliases are written between quotes, and whose functions have plain names,
means a plain term: its durations read, the names of its functions in capitals.  What the draft
composes to is the text of that term, so drafts of one text mean one term.  What a draft has
beyond the term it means is the case of letters and the spelling of durations, and nothing else.
-/
import SeriesQuery.Proofs.Draft.Spelling
import SeriesQuery.Proofs.Query.Terms

namespace SeriesQuery

open Text

/-! ### Function names -/

/-- A letter from A to Z in either case, or an underscore. -/
def isFunctionLetter (c : Char) : Bool :=
  c.isAlpha || c == '_'

/-- The name has only such letters, and there is one. -/
def IsFunctionName (f : String) : Prop :=
  f ≠ "" ∧ f.toList.all isFunctionLetter = true

instance (f : String) : Decidable (IsFunctionName f) :=
  inferInstanceAs (Decidable (_ ∧ _))

/-- The same letters, whatever their case. -/
def SameLetters (f f' : String) : Prop :=
  f.toList.map Char.toUpper = f'.toList.map Char.toUpper

theorem toNat_lt_of_isFunctionLetter {c : Char} (h : isFunctionLetter c = true) :
    c.toNat < 128 := by
  rcases Bool.or_eq_true_iff.mp h with halpha | hline
  · rcases Bool.or_eq_true_iff.mp halpha with hupper | hlower
    · have hrange := toNat_of_isUpper hupper
      omega
    · have hrange := toNat_of_isLower hlower
      omega
  · rw [eq_of_beq hline]
    decide

/-- Decided on code points. -/
theorem upperChar_of_isFunctionLetter {c : Char} (h : isFunctionLetter c = true) :
    upperChar c = [c.toUpper] ∧ isCapital c.toUpper = true := by
  have hall : ∀ n < 128, isFunctionLetter (Char.ofNat n) = true →
      upperChar (Char.ofNat n) = [(Char.ofNat n).toUpper] ∧
        isCapital (Char.ofNat n).toUpper = true := by decide +kernel
  have hc := hall c.toNat (toNat_lt_of_isFunctionLetter h)
  rw [Char.ofNat_toNat] at hc
  exact hc h

theorem toList_upperCase {f : String} (h : IsFunctionName f) :
    (upperCase f).toList = f.toList.map Char.toUpper := by
  unfold upperCase
  rw [String.toList_ofList, List.map_eq_flatMap]
  exact List.flatMap_congr fun c hc =>
    (upperChar_of_isFunctionLetter (List.all_eq_true.mp h.2 c hc)).1

/-- The name of the function as a call writes it. -/
def FunctionName.ofDraft (f : String) (h : IsFunctionName f) : FunctionName where
  text := upperCase f
  ne_empty := by
    intro hempty
    have hlist := toList_upperCase h
    rw [hempty] at hlist
    exact h.1 (String.toList_inj.mp (List.map_eq_nil_iff.mp hlist.symm))
  all_capitals := by
    rw [toList_upperCase h, List.all_map]
    exact List.all_eq_true.mpr fun c hc =>
      (upperChar_of_isFunctionLetter (List.all_eq_true.mp h.2 c hc)).2

/-! ### Names between quotes -/

namespace Fragment

theorem plainName?_of_isPlain {s : String} (h : Identifier.IsPlain s) :
    (name s).plainName? = some s :=
  if_pos h

theorem compile_name_of_isPlain {s : String} (h : Identifier.IsPlain s) :
    (name s).compile = .ok (sortText (s, none)) :=
  compile_of_sortTerm? (congrArg (Option.map (·, none)) (plainName?_of_isPlain h))

theorem compile_ordered_of_isPlain {s : String} (h : Identifier.IsPlain s) (d : SortDirection) :
    (ordered (name s) d).compile = .ok (sortText (s, some d)) :=
  compile_of_sortTerm? (congrArg (Option.map (·, some d)) (plainName?_of_isPlain h))

theorem compileOption_of_isPlain {a : Option String} (h : ∀ s ∈ a, Identifier.IsPlain s) :
    compileOption (a.map name) = .ok (a.map Identifier.quote) := by
  rw [compileOption_name, Option.map_congr fun s hs => Identifier.text_of_isPlain (h s hs)]

end Fragment

namespace TermDraft

/-! ### Drafts of plain terms -/

/-- Names and aliases are written between quotes, functions have plain names, and numbers are
    whole, at any depth. -/
inductive IsPlain : TermDraft → Prop
  | name {s : String} (h : Identifier.IsPlain s) : IsPlain (name s)
  | int (n : Int) : IsPlain (int n)
  | call {f : String} {args : List TermDraft} {aliasName : Option String}
      (hfunction : IsFunctionName f) (hargs : ∀ t ∈ args, IsPlain t)
      (halias : ∀ a ∈ aliasName, Identifier.IsPlain a) : IsPlain (call f args aliasName)
  | time (interval : String) (offset : Option String) : IsPlain (time interval offset)
  | asc {field : String} (h : Identifier.IsPlain field) : IsPlain (asc field)
  | desc {field : String} (h : Identifier.IsPlain field) : IsPlain (desc field)

/-- The plain term that a draft means. -/
inductive Means : TermDraft → PlainTerm → Prop
  | name (s : String) : Means (name s) (.name s none)
  | int (n : Int) : Means (int n) (.int n)
  | call {f : String} {g : FunctionName} {args : List TermDraft} {terms : List PlainTerm}
      (aliasName : Option String) (hfunction : IsFunctionName f) (hname : g.text = upperCase f)
      (hargs : List.Forall₂ Means args terms) :
      Means (call f args aliasName) (.call g terms aliasName)
  | time {interval : String} {offset : Option String} {d : Duration} {o : Option Duration}
      (hinterval : Duration.parse interval = .ok d)
      (hoffset : Option.Rel (fun t d => Duration.parse t = .ok d) offset o) :
      Means (time interval offset) (.window d o)
  | asc (field : String) : Means (asc field) (.name field (some .asc))
  | desc (field : String) : Means (desc field) (.name field (some .desc))

/-- The term as it stands in a statement. -/
def text (t : TermDraft) : Composed String := do
  let f ← t.fragment
  f.compile

-- By induction on the draft; the arguments of a call mean terms one by one.
mutual

/-- A plain draft that is a fragment means a term, and composes to its text. -/
theorem exists_means : ∀ {t : TermDraft} {f : Fragment}, t.IsPlain → t.fragment = .ok f →
    ∃ x, Means t x ∧ f.compile = .ok x.text
  | name s, _, hplain, hf => by
    cases hplain with
    | name h =>
        cases hf
        exact ⟨_, .name s, Fragment.compile_name_of_isPlain h⟩
  | int n, _, _, hf => by
    cases hf
    exact ⟨_, .int n, rfl⟩
  | float x, _, hplain, _ => by
    cases hplain
  | call f args aliasName, _, hplain, hf => by
    cases hplain with
    | call hfunction hargs halias =>
        unfold fragment at hf
        obtain ⟨fs, hfs, hf⟩ := Composed.bind_eq_ok_iff.mp hf
        cases hf
        obtain ⟨xs, hxs, hcompile⟩ := exists_means_all hargs hfs
        refine ⟨.call (.ofDraft f hfunction) xs aliasName, .call aliasName hfunction rfl hxs, ?_⟩
        unfold Fragment.compile
        rw [hcompile, Fragment.compileOption_of_isPlain halias]
        rfl
  | time interval none, _, _, hf => by
    obtain ⟨d, hd, hf⟩ := Composed.bind_eq_ok_iff.mp hf
    cases hf
    exact ⟨_, .time hd .none, rfl⟩
  | time interval (some offset), _, _, hf => by
    obtain ⟨d, hd, hf⟩ := Composed.bind_eq_ok_iff.mp hf
    obtain ⟨o, ho, hf⟩ := Composed.bind_eq_ok_iff.mp hf
    cases hf
    exact ⟨_, .time hd (.some ho), rfl⟩
  | asc field, _, hplain, hf => by
    cases hplain with
    | asc h =>
        cases hf
        exact ⟨_, .asc field, Fragment.compile_ordered_of_isPlain h .asc⟩
  | desc field, _, hplain, hf => by
    cases hplain with
    | desc h =>
        cases hf
        exact ⟨_, .desc field, Fragment.compile_ordered_of_isPlain h .desc⟩

theorem exists_means_all : ∀ {ts : List TermDraft} {fs : List Fragment},
    (∀ t ∈ ts, t.IsPlain) → fragments ts = .ok fs →
      ∃ xs, List.Forall₂ Means ts xs ∧ Fragment.compileAll fs = .ok (PlainTerm.texts xs)
  | [], _, _, hfs => by
    cases hfs
    exact ⟨[], .nil, rfl⟩
  | t :: ts, _, hplain, hfs => by
    obtain ⟨f, hf, hfs⟩ := Composed.bind_eq_ok_iff.mp hfs
    obtain ⟨fs, hfs', hfs⟩ := Composed.bind_eq_ok_iff.mp hfs
    cases hfs
    obtain ⟨x, hx, htext⟩ := exists_means (hplain t List.mem_cons_self) hf
    obtain ⟨xs, hxs, htexts⟩ :=
      exists_means_all (fun u hu => hplain u (List.mem_cons_of_mem t hu)) hfs'
    refine ⟨x :: xs, .cons hx hxs, ?_⟩
    unfold Fragment.compileAll
    rw [htext, htexts]
    rfl

end

/-! ### Drafts of one term -/

-- By induction on the first draft: the term tells which draft the second is.
mutual

theorem alike_of_means : ∀ {t t' : TermDraft} {x : PlainTerm}, Means t x → Means t' x →
    Alike SameLetters Duration.Agree t t'
  | name s, _, _, h, h' => by
    cases h
    cases h'
    exact .name s
  | int n, _, _, h, h' => by
    cases h
    cases h'
    exact .int n
  | float _, _, _, h, _ => by
    cases h
  | call f args aliasName, _, _, h, h' => by
    cases h with
    | call _ hfunction hname hargs =>
        cases h' with
        | call _ hfunction' hname' hargs' =>
            refine .call aliasName ?_ (alike_of_means_all hargs hargs')
            unfold SameLetters
            rw [← toList_upperCase hfunction, ← hname, hname', toList_upperCase hfunction']
  | time interval offset, _, _, h, h' => by
    cases h with
    | time hinterval hoffset =>
        cases h' with
        | time hinterval' hoffset' =>
            refine .time ⟨_, hinterval, hinterval'⟩ ?_
            cases hoffset with
            | none =>
                cases hoffset'
                exact .none
            | some h =>
                cases hoffset' with
                | some h' => exact .some ⟨_, h, h'⟩
  | asc field, _, _, h, h' => by
    cases h
    cases h'
    exact .asc field
  | desc field, _, _, h, h' => by
    cases h
    cases h'
    exact .desc field

theorem alike_of_means_all : ∀ {ts ts' : List TermDraft} {xs : List PlainTerm},
    List.Forall₂ Means ts xs → List.Forall₂ Means ts' xs →
      List.Forall₂ (Alike SameLetters Duration.Agree) ts ts'
  | [], _, _, h, h' => by
    cases h
    cases h'
    exact .nil
  | t :: ts, _, _, h, h' => by
    cases h with
    | cons hx hxs =>
        cases h' with
        | cons hx' hxs' => exact .cons (alike_of_means hx hx') (alike_of_means_all hxs hxs')

end

/--
**The text of a term determines the term.**  Two drafts of terms, nested to any depth, whose names
and aliases are written between quotes, whose functions have plain names and whose numbers are
whole, and which compose to the same text, are the same tree: the same arguments in the same
order, the same aliases and directions.  Only the case of a function's letters may differ, and
the token of a duration.
-/
theorem same_term_of_same_text {t t' : TermDraft} (ht : t.IsPlain) (ht' : t'.IsPlain) {s : String}
    (hs : t.text = .ok s) (hs' : t'.text = .ok s) : Alike SameLetters Duration.Agree t t' := by
  obtain ⟨f, hf, hcompile⟩ := Composed.bind_eq_ok_iff.mp hs
  obtain ⟨f', hf', hcompile'⟩ := Composed.bind_eq_ok_iff.mp hs'
  obtain ⟨x, hx, htext⟩ := exists_means ht hf
  obtain ⟨x', hx', htext'⟩ := exists_means ht' hf'
  rw [hcompile] at htext
  rw [hcompile'] at htext'
  have hsame : x = x' :=
    PlainTerm.text_injective ((Except.ok.inj htext).symm.trans (Except.ok.inj htext'))
  exact alike_of_means hx (hsame ▸ hx')

/-- A name that holds a comma and a parenthesis, in calls with an alias and a time window. -/
theorem same_term_of_means :
    let mean (function interval : String) : TermDraft :=
      .call function [.name "a), b", .time interval (some "0s")] (some "m")
    (mean "mean" "5400s").IsPlain ∧ (mean "Mean" "90m").IsPlain ∧
      (mean "mean" "5400s").text = .ok "MEAN(\"a), b\", time(90m, 0s)) AS \"m\"" ∧
      (mean "Mean" "90m").text = .ok "MEAN(\"a), b\", time(90m, 0s)) AS \"m\"" ∧
      Alike SameLetters Duration.Agree (mean "mean" "5400s") (mean "Mean" "90m") := by
  intro mean
  have hplain (function interval : String) (hfunction : IsFunctionName function) :
      (mean function interval).IsPlain := by
    refine .call hfunction (fun t ht => ?_) (fun a ha => ?_)
    · rcases List.mem_cons.mp ht with rfl | ht
      · exact .name (by decide)
      · rw [List.mem_singleton.mp ht]
        exact .time interval (some "0s")
    · rw [← Option.some.inj ha]
      decide
  have hseconds := hplain "mean" "5400s" (by decide)
  have hminutes := hplain "Mean" "90m" (by decide)
  have htext : (mean "mean" "5400s").text = .ok "MEAN(\"a), b\", time(90m, 0s)) AS \"m\"" := by
    decide +kernel
  have htext' : (mean "Mean" "90m").text = .ok "MEAN(\"a), b\", time(90m, 0s)) AS \"m\"" := by
    decide +kernel
  exact ⟨hseconds, hminutes, htext, htext',
    same_term_of_same_text hseconds hminutes htext htext'⟩

end TermDraft

end SeriesQuery
