/-
Writing that shows where it ends.

A way of writing is self-delimiting when a text that begins with what is written for one thing
cannot also begin with what is written for another: from the whole text one can tell the thing,
and where its part of the text ends.  Mostly this holds only before certain texts: digits end
where no digit follows.  So `SelfDelimiting` carries the texts that may follow.

Writing one thing behind another, or any number of things, keeps the property, as long as each
part is followed by what it may be followed by.  `Closing` is the same for what comes last in a
text: optional parts, each behind a keyword of its own, where every part may be followed by any
of the keywords of the parts behind it.  A statement is put together in just these ways.
-/
import SeriesQuery.Text.Blank

namespace SeriesQuery.Text

variable {α β : Type}

/-- What is said of the characters of a list is decided along the list, also where there is an
    instance that goes through all characters. -/
instance (priority := 2000) decidableForallMem (p : Char → Prop) [DecidablePred p]
    (s : List Char) : Decidable (∀ c ∈ s, p c) :=
  List.decidableBAll p s

/-- What is written can be told apart, and ends where it ends, before any text of `F`. -/
def SelfDelimiting (write : α → List Char) (F : List Char → Prop) : Prop :=
  ∀ ⦃a b : α⦄ ⦃r s : List Char⦄, F r → F s → write a ++ r = write b ++ s → a = b ∧ r = s

/-- The text does not begin with anything that is written so. -/
def Stops (write : α → List Char) (r : List Char) : Prop :=
  ∀ a x, r ≠ write a ++ x

/-- The text does not begin with a character that `p` accepts. -/
def EndsRun (p : Char → Bool) (r : List Char) : Prop :=
  ∀ c x, r = c :: x → p c = false

theorem endsRun_nil (p : Char → Bool) : EndsRun p [] := by
  intro c x h
  cases h

theorem endsRun_cons {p : Char → Bool} {c : Char} (h : p c = false) (r : List Char) :
    EndsRun p (c :: r) := by
  intro d x hd
  cases hd
  exact h

theorem EndsRun.mono {p q : Char → Bool} {r : List Char} (h : EndsRun p r)
    (hq : ∀ c, q c = true → p c = true) : EndsRun q r := by
  intro c x hx
  refine Bool.eq_false_iff.mpr fun hc => ?_
  have hp := h c x hx
  rw [hq c hc] at hp
  cases hp

/-- What is taken from a run, before a text that ends it, is the run. -/
theorem EndsRun.takeWhile_append {p : Char → Bool} {s r : List Char} (h : EndsRun p r)
    (hs : ∀ c ∈ s, p c = true) : (s ++ r).takeWhile p = s := by
  rw [List.takeWhile_append_of_pos hs]
  cases r with
  | nil => exact List.append_nil s
  | cons c r => rw [List.takeWhile_cons_of_neg (by simp [h c r rfl]), List.append_nil]

/-- What is left behind a run is the text that ends it. -/
theorem EndsRun.dropWhile_append {p : Char → Bool} {s r : List Char} (h : EndsRun p r)
    (hs : ∀ c ∈ s, p c = true) : (s ++ r).dropWhile p = r := by
  rw [List.dropWhile_append_of_pos hs]
  cases r with
  | nil => rfl
  | cons c r => exact List.dropWhile_cons_of_neg (by simp [h c r rfl])

namespace SelfDelimiting

variable {write : α → List Char} {write' : β → List Char} {F F' : List Char → Prop}

/-! ### Single things -/

/-- A run of characters that `p` accepts, before one that it does not. -/
theorem run (p : Char → Bool) :
    SelfDelimiting (fun a : {s : List Char // ∀ c ∈ s, p c = true} => a.val) (EndsRun p) := by
  rintro ⟨a, ha⟩
  induction a with
  | nil =>
      rintro ⟨b, hb⟩ r s hr _ h
      cases b with
      | nil => exact ⟨rfl, h⟩
      | cons d b =>
          have hd := hr d (b ++ s) h
          rw [hb d List.mem_cons_self] at hd
          cases hd
  | cons c a ih =>
      rintro ⟨b, hb⟩ r s hr hs h
      cases b with
      | nil =>
          have hc := hs c (a ++ r) h.symm
          rw [ha c List.mem_cons_self] at hc
          cases hc
      | cons d b =>
          simp only [List.cons_append, List.cons.injEq] at h
          obtain ⟨rfl, h⟩ := h
          obtain ⟨hab, hrs⟩ := ih (fun e he => ha e (List.mem_cons_of_mem _ he))
            (b := ⟨b, fun e he => hb e (List.mem_cons_of_mem _ he)⟩) hr hs h
          cases hab
          exact ⟨rfl, hrs⟩

theorem mono (h : SelfDelimiting write F) (hF : ∀ r, F' r → F r) : SelfDelimiting write F' :=
  fun _ _ _ _ hr hs heq => h (hF _ hr) (hF _ hs) heq

/-- Things that are written as other things are, one to one. -/
theorem comap (h : SelfDelimiting write F) {f : β → α} (hf : Function.Injective f) :
    SelfDelimiting (fun b => write (f b)) F := by
  intro a b r s hr hs heq
  obtain ⟨hab, hrs⟩ := h hr hs heq
  exact ⟨hf hab, hrs⟩

/-- Everything behind the same text. -/
theorem behind (h : SelfDelimiting write F) (k : List Char) :
    SelfDelimiting (fun a => k ++ write a) F := by
  intro a b r s hr hs heq
  rw [List.append_assoc, List.append_assoc] at heq
  exact h hr hs (List.append_cancel_left heq)

/-- With the same text behind it, a thing may be followed by anything. -/
theorem closed (h : SelfDelimiting write F) {k : List Char} (hk : ∀ r, F (k ++ r)) :
    SelfDelimiting (fun a => write a ++ k) (fun _ => True) := by
  intro a b r s _ _ heq
  rw [List.append_assoc, List.append_assoc] at heq
  obtain ⟨hab, hrs⟩ := h (hk r) (hk s) heq
  exact ⟨hab, List.append_cancel_left hrs⟩

/-- Things that are written as words of `p`, each as another. -/
theorem word {p : Char → Bool} {w : α → String}
    (hp : ∀ a, (w a).toList.all p = true) (hw : Function.Injective w) :
    SelfDelimiting (fun a => (w a).toList) (EndsRun p) := by
  refine (run p).comap (f := fun a => ⟨(w a).toList, List.all_eq_true.mp (hp a)⟩) ?_
  intro a b h
  exact hw (String.toList_inj.mp (congrArg Subtype.val h))

/-! ### Several things -/

/-- One thing directly behind another. -/
theorem seq (h : SelfDelimiting write F') (h' : SelfDelimiting write' F)
    (hF : ∀ b r, F r → F' (write' b ++ r)) :
    SelfDelimiting (fun x : α × β => write x.1 ++ write' x.2) F := by
  rintro ⟨a, b⟩ ⟨a', b'⟩ r s hr hs heq
  rw [List.append_assoc, List.append_assoc] at heq
  obtain ⟨rfl, hrest⟩ := h (hF b r hr) (hF b' s hs) heq
  obtain ⟨rfl, hrs⟩ := h' hr hs hrest
  exact ⟨rfl, hrs⟩

/-- A thing, or a text in its place that cannot begin it. -/
theorem orElse (h : SelfDelimiting write F) {k : List Char}
    (hk : ∀ a r s, F s → write a ++ r ≠ k ++ s) :
    SelfDelimiting (fun o : Option α => o.elim k write) F := by
  intro o o' r s hr hs heq
  cases o with
  | none =>
      cases o' with
      | none => exact ⟨rfl, List.append_cancel_left heq⟩
      | some b => exact absurd heq.symm (hk b s r hr)
  | some a =>
      cases o' with
      | none => exact absurd heq (hk a r s hs)
      | some b =>
          obtain ⟨rfl, hrs⟩ := h hr hs heq
          exact ⟨rfl, hrs⟩

/-- A thing that may be left out, where no such thing could follow. -/
theorem optional (h : SelfDelimiting write F) :
    SelfDelimiting (fun o : Option α => o.elim [] write) (fun r => F r ∧ Stops write r) :=
  (h.mono fun _ hr => hr.1).orElse fun a r _ hs heq => hs.2 a r heq.symm

/-- Any number of things, one behind the other, where no such thing could follow. -/
theorem many (h : SelfDelimiting write F) (hnext : ∀ a x, F (write a ++ x)) :
    SelfDelimiting (fun as : List α => as.flatMap write) (fun r => F r ∧ Stops write r) := by
  have hfollow : ∀ (as : List α) (r : List Char), F r → F (as.flatMap write ++ r) := by
    intro as r hr
    cases as with
    | nil => exact hr
    | cons a as =>
        rw [List.flatMap_cons, List.append_assoc]
        exact hnext a _
  -- Where one list ends the other must end too, since what follows begins no further thing.
  intro as
  induction as with
  | nil =>
      intro bs r s hr _ heq
      cases bs with
      | nil => exact ⟨rfl, heq⟩
      | cons b bs =>
          simp only [List.flatMap_nil, List.nil_append, List.flatMap_cons,
            List.append_assoc] at heq
          exact absurd heq (hr.2 b _)
  | cons a as ih =>
      intro bs r s hr hs heq
      cases bs with
      | nil =>
          simp only [List.flatMap_nil, List.nil_append, List.flatMap_cons,
            List.append_assoc] at heq
          exact absurd heq.symm (hs.2 a _)
      | cons b bs =>
          simp only [List.flatMap_cons, List.append_assoc] at heq
          obtain ⟨rfl, hrest⟩ := h (hfollow as r hr.1) (hfollow bs s hs.1) heq
          obtain ⟨rfl, hrs⟩ := ih hr hs hrest
          exact ⟨rfl, hrs⟩

/-- A first thing and any number of further ones. -/
theorem chain (h : SelfDelimiting write F) (h' : SelfDelimiting write' F)
    (hnext : ∀ b x, F (write' b ++ x)) :
    SelfDelimiting (fun x : α × List β => write x.1 ++ x.2.flatMap write')
      (fun r => F r ∧ Stops write' r) := by
  refine h.seq (h'.many hnext) ?_
  intro bs r hr
  cases bs with
  | nil => exact hr.1
  | cons b bs =>
      rw [List.flatMap_cons, List.append_assoc]
      exact hnext b _

/-- A list that is not empty, with the same text between each two of its things. -/
theorem separated (h : SelfDelimiting write F) {k : List Char} (hk : ∀ x, F (k ++ x)) :
    SelfDelimiting (fun x : α × List α => write x.1 ++ x.2.flatMap fun a => k ++ write a)
      (fun r => F r ∧ ∀ x, r ≠ k ++ x) := by
  have hnext : ∀ a x, F (k ++ write a ++ x) := by
    intro a x
    rw [List.append_assoc]
    exact hk _
  refine (h.chain (h.behind k) hnext).mono ?_
  rintro r ⟨hr, hstop⟩
  refine ⟨hr, ?_⟩
  intro a x
  show r ≠ k ++ write a ++ x
  rw [List.append_assoc]
  exact hstop _

end SelfDelimiting

/-! ### Keywords that open what follows -/

/-- The text is at its end, or begins with one of the keywords. -/
def Opens (keywords : List (List Char)) (r : List Char) : Prop :=
  r = [] ∨ ∃ k ∈ keywords, k <+: r

/-- There is something to `k`, no keyword begins with it, and it begins with no keyword. -/
def Apart (k : List Char) (keywords : List (List Char)) : Prop :=
  k ≠ [] ∧ ∀ k' ∈ keywords, ¬ k <+: k' ∧ ¬ k' <+: k

instance (k : List Char) (keywords : List (List Char)) : Decidable (Apart k keywords) :=
  inferInstanceAs (Decidable (_ ∧ _))

namespace Opens

variable {keywords : List (List Char)} {r : List Char}

theorem ne_append {k : List Char} (h : Opens keywords r) (hk : Apart k keywords)
    (x : List Char) : r ≠ k ++ x := by
  rintro rfl
  rcases h with hnil | ⟨k', hk', hpre⟩
  · exact hk.1 (List.append_eq_nil_iff.mp hnil).1
  · rcases List.prefix_or_prefix_of_prefix hpre (List.prefix_append k x) with h | h
    · exact (hk.2 k' hk').2 h
    · exact (hk.2 k' hk').1 h

theorem endsRun {p : Char → Bool} (h : Opens keywords r)
    (hk : (keywords.all fun k => k.head?.any fun c => !p c) = true) : EndsRun p r := by
  rcases h with rfl | ⟨k, hmem, y, rfl⟩
  · exact endsRun_nil p
  · have hhead := List.all_eq_true.mp hk k hmem
    cases k with
    | nil => cases hhead
    | cons c x => exact endsRun_cons (by simpa using hhead) _

end Opens

/-- An optional thing behind its keyword, and then the rest. -/
def optionally (k : List Char) (write : α → List Char) (writeRest : β → List Char)
    (x : Option α × β) : List Char :=
  x.1.elim [] (fun a => k ++ write a) ++ writeRest x.2

/-- What is written goes on to the end of the text: it shows what it is, and opens with one of
    the keywords unless there is nothing to write. -/
structure Closing (keywords : List (List Char)) (write : α → List Char) : Prop where
  injective : Function.Injective write
  opens : ∀ a, Opens keywords (write a)

namespace Closing

variable {keywords : List (List Char)} {write : α → List Char} {writeRest : β → List Char}
variable {F : List Char → Prop}

theorem nil : Closing [] (fun _ : Unit => []) :=
  ⟨fun _ _ _ => rfl, fun _ => Or.inl rfl⟩

/-- An optional part in front keeps the property when its keyword is none of those behind it. -/
theorem cons {k : List Char} (hrest : Closing keywords writeRest) (h : SelfDelimiting write F)
    (hF : ∀ r, Opens keywords r → F r) (hk : Apart k keywords) :
    Closing (k :: keywords) (optionally k write writeRest) := by
  constructor
  · rintro ⟨o, b⟩ ⟨o', b'⟩ heq
    have hfollow : ∀ b, F (writeRest b) ∧ Stops (fun a => k ++ write a) (writeRest b) := by
      intro b
      refine ⟨hF _ (hrest.opens b), ?_⟩
      intro a x
      show writeRest b ≠ k ++ write a ++ x
      rw [List.append_assoc]
      exact (hrest.opens b).ne_append hk _
    obtain ⟨hoo, htail⟩ := (h.behind k).optional (hfollow b) (hfollow b') heq
    exact Prod.ext hoo (hrest.injective htail)
  · rintro ⟨o, b⟩
    cases o with
    | none =>
        rcases hrest.opens b with hnil | ⟨k', hk', hpre⟩
        · exact Or.inl hnil
        · exact Or.inr ⟨k', List.mem_cons_of_mem _ hk', hpre⟩
    | some a =>
        refine Or.inr ⟨k, List.mem_cons_self, ?_⟩
        simp only [optionally, Option.elim_some, List.append_assoc]
        exact List.prefix_append _ _

/-- What comes before the closing part of a text shows what it is, too. -/
theorem preceded (hrest : Closing keywords writeRest) (h : SelfDelimiting write F)
    (hF : ∀ r, Opens keywords r → F r) :
    Function.Injective (fun x : α × β => write x.1 ++ writeRest x.2) := by
  rintro ⟨a, b⟩ ⟨a', b'⟩ heq
  obtain ⟨rfl, htail⟩ := h (hF _ (hrest.opens b)) (hF _ (hrest.opens b')) heq
  rw [hrest.injective htail]

end Closing

end SeriesQuery.Text
