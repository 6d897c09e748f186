/-
Terms and the functions they name.

A term writes a call with the name of its function and with its arguments as terms; a program puts
the same call together with the function itself.  Both ways lead to one text.  What an argument
composes to is all that a call takes from it, so calls agree as soon as their arguments agree one
by one, and agreement is carried from the innermost argument outwards.  A time window has no
arguments, and all three ways of writing one are the same call.
-/
import SeriesQuery.Proofs.Draft.FirstFailure
import SeriesQuery.Proofs.Draft.TermText

namespace SeriesQuery

open Composed

/-! ### Calls under an alias -/

namespace Call

/-- The call under the alias that is given, or the call as it is. -/
def under (c : Call) (aliasName : Option String) : Call :=
  match aliasName with
  | some a => c.aliased (.name a)
  | none => c

theorem fragment_under (function : String) (args : List Fragment) (aliasName : Option String) :
    ((Call.mk function args none).under aliasName).fragment =
      .call function args (aliasName.map .name) := by
  cases aliasName <;> rfl

/-- A window that is given as a duration is the call that groups by it. -/
theorem compile_time (d : Duration) :
    (Call.time d).fragment.compile = .ok (Fragment.windowText d) :=
  rfl

end Call

namespace TermDraft

/-! ### Agreement -/

/-- The term composes, and to the text that the fragment composes to. -/
def ComposesAs (t : TermDraft) (f : Fragment) : Prop :=
  ∃ s, t.text = .ok s ∧ f.compile = .ok s

theorem text_of_fragment {t : TermDraft} {f : Fragment} (h : t.fragment = .ok f) :
    t.text = f.compile := by
  unfold text
  rw [h, ok_bind]

/-- Whatever a term means composes. -/
theorem composesAs_of_fragment {t : TermDraft} {f : Fragment} (h : t.fragment = .ok f) :
    ComposesAs t f := by
  have hperforms := f.performs
  rw [checks_of_fragment h] at hperforms
  obtain ⟨s, hs⟩ := hperforms.exists_ok_iff.mpr (by simp)
  exact ⟨s, (text_of_fragment h).trans hs, hs⟩

theorem composesAs_int (n : Int) : ComposesAs (int n) (.raw (toString n)) :=
  composesAs_of_fragment rfl

/-- Arguments that agree one by one compose to the same texts. -/
theorem exists_texts {args : List TermDraft} {fields : List Fragment}
    (h : List.Forall₂ ComposesAs args fields) :
    ∃ fs texts, fragments args = .ok fs ∧ Fragment.compileAll fs = .ok texts ∧
      Fragment.compileAll fields = .ok texts := by
  induction h with
  | nil => exact ⟨[], [], rfl, rfl, rfl⟩
  | cons hagree _ ih =>
      obtain ⟨s, hs, hfield⟩ := hagree
      obtain ⟨f, hf, hcompile⟩ := bind_eq_ok_iff.mp hs
      obtain ⟨fs, texts, hfs, htexts, hfields⟩ := ih
      refine ⟨f :: fs, s :: texts, ?_, ?_, ?_⟩
      · unfold fragments
        rw [hf, hfs]
        rfl
      · unfold Fragment.compileAll
        rw [hcompile, htexts]
        rfl
      · unfold Fragment.compileAll
        rw [hfield, hfields]
        rfl

/-- Calls agree when the name in capitals is the function's and their arguments agree. -/
theorem composesAs_call {function name : String} (hname : Text.upperCase function = name)
    {args : List TermDraft} {fields : List Fragment} (h : List.Forall₂ ComposesAs args fields)
    (aliasName : Option String) :
    ComposesAs (call function args aliasName)
      ((Call.mk name fields none).under aliasName).fragment := by
  obtain ⟨fs, texts, hfs, htexts, hfields⟩ := exists_texts h
  have hfragment : (call function args aliasName).fragment =
      .ok (.call name fs (aliasName.map .name)) := by
    unfold fragment
    rw [hfs, hname]
    rfl
  obtain ⟨s, hs, hcompile⟩ := composesAs_of_fragment hfragment
  refine ⟨s, hs, ?_⟩
  rw [← hcompile, Call.fragment_under]
  unfold Fragment.compile
  rw [htexts, hfields]

/-- A window that is given as a duration agrees with the call that groups by it. -/
theorem composesAs_window {t : TermDraft} {d : Duration}
    (h : t.fragment = .ok (Call.time d).fragment) : ComposesAs t (.window d) :=
  ⟨_, (text_of_fragment h).trans (Call.compile_time d), rfl⟩

/--
**A term agrees with the function it names.**  A term that means something composes to the text of
what it means.  From a term that agrees with a field, a call of one function, in any letters that
are its name in capitals and under any alias, agrees with the function of that field under that
alias, and so does a call with a number behind the field; so agreement is carried to any depth.  A
time window agrees with the call of its duration and with the duration itself, and a window with
an offset with the call of both.
-/
theorem agrees_with_function :
    (∀ (t : TermDraft) (f : Fragment), t.fragment = .ok f → ComposesAs t f) ∧
      (∀ (t : TermDraft) (field : Fragment), ComposesAs t field →
        ∀ (function : String) (aliasName : Option String),
          (∀ f : FieldFunction, Text.upperCase function = f.name →
            ComposesAs (call function [t] aliasName) ((f.of field).under aliasName).fragment) ∧
          ∀ f : NumberedFunction, Text.upperCase function = f.name → ∀ n : Int,
            ComposesAs (call function [t, int n] aliasName)
              ((f.of field (toString n)).under aliasName).fragment) ∧
      (∀ (interval : String) (d : Duration), Duration.parse interval = .ok d →
        ComposesAs (time interval none) (Call.time d).fragment ∧
          ComposesAs (time interval none) (.window d)) ∧
      ∀ (interval offset : String) (d e : Duration), Duration.parse interval = .ok d →
        Duration.parse offset = .ok e →
          ComposesAs (time interval (some offset)) (Call.timeWithOffset d e).fragment := by
  refine ⟨fun _ _ => composesAs_of_fragment, ?_, ?_, ?_⟩
  · intro t field hagree function aliasName
    constructor
    · intro f hname
      exact composesAs_call hname (.cons hagree .nil) aliasName
    · intro f hname n
      exact composesAs_call hname (.cons hagree (.cons (composesAs_int n) .nil)) aliasName
  · intro interval d hd
    have hfragment : (time interval none).fragment = .ok (Call.time d).fragment := by
      unfold fragment
      rw [hd]
      rfl
    exact ⟨composesAs_of_fragment hfragment, composesAs_window hfragment⟩
  · intro interval offset d e hd he
    refine composesAs_of_fragment ?_
    unfold fragment
    rw [hd, he]
    rfl

/-- A name whose first letters are one character, of which capitals make two, in a call under an
    alias that is written as it stands; the number in the inner call is negative. -/
theorem agrees_with_first_of_percentile :
    let field : TermDraft := .call "Distinct" [.name "level description"] none
    let ranked : TermDraft := .call "percentile" [field, .int (-90)] none
    let percentile : Fragment :=
      (NumberedFunction.percentile.of
        (FieldFunction.distinct.of (.name "level description")).fragment "-90").fragment
    let hours : Duration := ⟨5400000000000, by decide⟩
    let seconds : Duration := ⟨90000000000, by decide⟩
    Text.upperCase "\uFB01rst" = FieldFunction.first.name ∧ ComposesAs ranked percentile ∧
      ComposesAs (.call "\uFB01rst" [ranked] (some "dream.name"))
        ((FieldFunction.first.of percentile).under (some "dream.name")).fragment ∧
      Duration.parse "5400s" = .ok hours ∧ Duration.parse "90000ms" = .ok seconds ∧
      ComposesAs (.time "5400s" none) (.window hours) ∧
      ComposesAs (.time "5400s" (some "90000ms")) (Call.timeWithOffset hours seconds).fragment := by
  intro field ranked percentile hours seconds
  obtain ⟨hmeant, hcalls, hwindow, hshifted⟩ := agrees_with_function
  have hfield : ComposesAs field (FieldFunction.distinct.of (.name "level description")).fragment :=
    ((hcalls _ _ (hmeant _ _ rfl)) "Distinct" none).1 .distinct (by decide)
  have hranked : ComposesAs ranked percentile :=
    ((hcalls _ _ hfield) "percentile" none).2 .percentile (by decide) (-90)
  have hname : Text.upperCase "\uFB01rst" = FieldFunction.first.name := by decide
  have hhours : Duration.parse "5400s" = .ok hours := by decide +kernel
  have hseconds : Duration.parse "90000ms" = .ok seconds := by decide +kernel
  exact ⟨hname, hranked, ((hcalls _ _ hranked) _ _).1 .first hname, hhours, hseconds,
    (hwindow _ _ hhours).2, hshifted _ _ _ _ hhours hseconds⟩

end TermDraft

end SeriesQuery
