/-
Values written on one line.

Lists and tables hold further values, with blanks around each and commas between them.  `Writes`
says which characters write which document, for scalars that are integers, date-times or texts, and
for what can be put together from them; no key stands in a table twice.  What is written is read,
one depth at a time: the readers of lists and tables are given a reader of what stands in them, and
need to know of it only that it stops where a comma or a bracket follows.
-/
import SeriesQuery.Proofs.Toml.Scalars
import SeriesQuery.Toml.Reader

namespace SeriesQuery.Toml

open Text Text.Reader

/-! ### Blanks -/

/-- Blanks within a line, possibly none. -/
def Blanks (s : List Char) : Prop :=
  ∀ c ∈ s, isSpace c = true

theorem blanks_nil : Blanks [] :=
  List.forall_mem_nil _

/-- A character that opens a value. -/
def opensValue (c : Char) : Bool :=
  c.isDigit || ['+', '-', '"', '[', '\x7b'].contains c

/-- The text starts with a character that opens a value. -/
def Starts (s : List Char) : Prop :=
  ∃ c r, s = c :: r ∧ opensValue c = true

theorem Starts.append {s : List Char} (h : Starts s) (rest : List Char) : Starts (s ++ rest) := by
  obtain ⟨c, r, rfl, hc⟩ := h
  exact ⟨c, r ++ rest, rfl, hc⟩

theorem spaces_append {blanks s : List Char} (hblanks : Blanks blanks)
    (hs : EndsRun isSpace s) : spaces (blanks ++ s) = some ((), s) := by
  unfold spaces
  rw [bind_of_eq_some (span_append hblanks hs)]
  rfl

theorem layout_append {blanks s : List Char} (hblanks : Blanks blanks)
    (hs : dropLayout false s = s) : layout (blanks ++ s) = some ((), s) := by
  refine congrArg (fun r => some ((), r)) ?_
  induction blanks with
  | nil => exact hs
  | cons c blanks ih =>
      have hc : c = ' ' ∨ c = '\t' := by
        simpa [isSpace] using hblanks c List.mem_cons_self
      have ih := ih fun d hd => hblanks d (List.mem_cons_of_mem c hd)
      rcases hc with rfl | rfl <;> exact ih

/-- The text starts with a comma or a closing bracket. -/
def AtMark (s : List Char) : Prop :=
  ∃ c r, s = c :: r ∧ c ∈ [',', ']', '\x7d']

theorem ne_of_opensValue {c d : Char} (hc : opensValue c = true) (hd : opensValue d = false) :
    c ≠ d := by
  rintro rfl
  rw [hc] at hd
  cases hd

theorem isSpace_of_opensValue {c : Char} (hc : opensValue c = true) : isSpace c = false := by
  have hspace := ne_of_opensValue hc (d := ' ') (by decide)
  have htab := ne_of_opensValue hc (d := '\t') (by decide)
  simp [isSpace, hspace, htab]

theorem Starts.dropLayout {s : List Char} (h : Starts s) : dropLayout false s = s := by
  obtain ⟨c, r, rfl, hc⟩ := h
  have hbreak := ne_of_opensValue hc (d := '\n') (by decide)
  have hreturn := ne_of_opensValue hc (d := '\r') (by decide)
  have hcomment := ne_of_opensValue hc (d := '#') (by decide)
  have hspace := isSpace_of_opensValue hc
  unfold Toml.dropLayout
  split <;> simp_all

theorem AtMark.dropLayout {s : List Char} (h : AtMark s) : dropLayout false s = s := by
  obtain ⟨c, r, rfl, hc⟩ := h
  simp only [List.mem_cons, List.not_mem_nil, or_false] at hc
  rcases hc with rfl | rfl | rfl <;> rfl

theorem Starts.endsRun {s : List Char} (h : Starts s) : EndsRun isSpace s := by
  obtain ⟨c, r, rfl, hc⟩ := h
  exact endsRun_cons (isSpace_of_opensValue hc) r

theorem AtMark.endsRun {s : List Char} (h : AtMark s) : EndsRun isSpace s := by
  obtain ⟨c, r, rfl, hc⟩ := h
  exact endsRun_cons ((by decide : ∀ c ∈ [',', ']', '\x7d'], isSpace c = false) c hc) r

/-- A value ends before blanks and a delimiter that is no blank. -/
theorem endsValue_blanks {blanks : List Char} (hblanks : Blanks blanks) {c : Char}
    (hc : isDelimiter c = true) (hspace : isSpace c = false) (r : List Char) :
    EndsValue (blanks ++ c :: r) := by
  have hdigit {d : Char} (hd : isDelimiter d = true) : d.isDigit = false :=
    (by decide : ∀ c ∈ delimiters, c.isDigit = false) d (mem_delimiters hd)
  have hfirst (b : List Char) (hb : Blanks b) :
      ∃ d r', b ++ c :: r = d :: r' ∧ isDelimiter d = true := by
    cases b with
    | nil => exact ⟨c, r, rfl, hc⟩
    | cons d b => exact ⟨d, _, rfl, by simp [isDelimiter, hb d List.mem_cons_self]⟩
  constructor
  · obtain ⟨d, r', hcons, hd⟩ := hfirst blanks hblanks
    rw [hcons]
    exact endsRun_cons (by simp [hd]) r'
  · intro r' hr'
    cases blanks with
    | nil =>
        rw [List.head_eq_of_cons_eq hr'] at hspace
        cases hspace
    | cons d b =>
        obtain ⟨d', r'', hcons, hd⟩ := hfirst b fun x hx => hblanks x (List.mem_cons_of_mem d hx)
        rw [← (List.cons.inj hr').2, List.append_eq, hcons]
        exact endsRun_cons (hdigit hd) r''

/-- A value ends before blanks and a mark. -/
theorem AtMark.endsValue {s : List Char} (h : AtMark s) {blanks : List Char}
    (hblanks : Blanks blanks) : EndsValue (blanks ++ s) := by
  obtain ⟨c, r, rfl, hc⟩ := h
  have hmark : isDelimiter c = true ∧ isSpace c = false :=
    (by decide : ∀ c ∈ [',', ']', '\x7d'], isDelimiter c = true ∧ isSpace c = false) c hc
  exact endsValue_blanks hblanks hmark.1 hmark.2 r

/-! ### Items with commas between them -/

/-- The text writes the items, each as `W` says, with a comma between each two. -/
inductive Items {α : Type} (W : α → List Char → Prop) : List α → List Char → Prop
  | single {a : α} {text : List Char} (h : W a text) : Items W [a] text
  | cons {a : α} {as : List α} {text more : List Char} (h : W a text) (hs : Items W as more) :
      Items W (a :: as) (text ++ ',' :: more)

/-- The reader reads each item as it is written, up to a mark. -/
def ReadsItems {α : Type} (item : Reader α) (W : α → List Char → Prop) : Prop :=
  ∀ {a : α} {text : List Char}, W a text → ∀ {rest : List Char}, AtMark rest →
    item (text ++ rest) = some (a, rest)

section Items

variable {α : Type} {item : Reader α} {W : α → List Char → Prop} {rest : List Char}

theorem Items.repeated {as : List α} {text : List Char} (h : Items W as text)
    (hitem : ReadsItems item W) (hrest : AtMark rest) (hend : Reader.char ',' rest = none) :
    repeated (do let _ ← Reader.char ','; item) (',' :: (text ++ rest)) = some (as, rest) := by
  have hread {a : α} {text s : List Char} (h : W a text) (hs : AtMark s) :
      (do let _ ← Reader.char ','; item : Reader α) (',' :: (text ++ s)) = some (a, s) :=
    (bind_of_eq_some (char_cons ',' _)).trans (hitem h hs)
  have hlt (text s : List Char) : s.length < (',' :: (text ++ s)).length := by
    rw [List.length_cons, List.length_append]
    omega
  induction h with
  | single h =>
      rw [repeated_of_eq_some (hread h hrest) (hlt _ _), repeated_of_eq_none (bind_of_eq_none hend)]
      rfl
  | @cons a as text more h hs ih =>
      rw [List.append_assoc, List.cons_append,
        repeated_of_eq_some (hread h ⟨',', _, rfl, by decide⟩) (hlt _ _), ih]
      rfl

/-- **Items are read up to the mark behind them that is no comma.** -/
theorem Items.separated {as : List α} {text : List Char} (h : Items W as text)
    (hitem : ReadsItems item W) (hrest : AtMark rest) (hend : Reader.char ',' rest = none) :
    separated item (Reader.char ',') (text ++ rest) = some (as, rest) := by
  cases h with
  | single h => exact separated_of_single (hitem h hrest) hend
  | @cons a as text more h hs =>
      have hread : item (text ++ ',' :: more ++ rest) = some (a, ',' :: (more ++ rest)) := by
        rw [List.append_assoc, List.cons_append]
        exact hitem h ⟨',', _, rfl, by decide⟩
      unfold Reader.separated
      rw [bind_of_eq_some (a := some a) (by rw [optional_apply, hread])]
      exact (bind_of_eq_some (hs.repeated hitem hrest hend)).trans rfl

theorem Items.map {β : Type} {f : α → β} {W' : β → List Char → Prop} {as : List α}
    {text : List Char} (h : Items W as text) (hf : ∀ {a text}, W a text → W' (f a) text) :
    Items W' (as.map f) text := by
  induction h with
  | single h => exact .single (hf h)
  | cons h _ ih => exact .cons (hf h) ih

end Items

/-! ### Documents -/

/-- The text writes the scalar. -/
inductive WritesScalar : Document → List Char → Prop
  | integer (w : IntegerSpelling) (hsigned : Document.isSigned64 w.value = true) :
      WritesScalar (.integer w.value) w.text
  | moment (w : Moment.Spelling) : WritesScalar w.moment.document w.text
  | text {text written : List Char} (h : WritesBasic text written) :
      WritesScalar (.text (String.ofList text)) ('"' :: (written ++ ['"']))

/-- The text is what `W` says, with blanks around it. -/
def Padded (W : Document → List Char → Prop) (d : Document) (text : List Char) : Prop :=
  ∃ before inner behind, Blanks before ∧ W d inner ∧ Blanks behind ∧
    text = before ++ inner ++ behind

/-- The key may stand without quotes. -/
def IsBare (key : String) : Prop :=
  key.toList ≠ [] ∧ ∀ c ∈ key.toList, isKeyChar c = true

instance (key : String) : Decidable (IsBare key) :=
  inferInstanceAs (Decidable (_ ∧ _))

/-- The text is a key without quotes, an equals sign and what `W` says, with blanks around each. -/
def Member (W : Document → List Char → Prop) (m : String × Document) (text : List Char) : Prop :=
  ∃ before afterKey padded, IsBare m.1 ∧ Blanks before ∧ Blanks afterKey ∧ Padded W m.2 padded ∧
    text = before ++ m.1.toList ++ afterKey ++ '=' :: padded

theorem Padded.of {W : Document → List Char → Prop} {d : Document} {text : List Char}
    (h : W d text) : Padded W d text :=
  ⟨[], text, [], blanks_nil, h, blanks_nil, (List.append_nil text).symm⟩

/-- The usual layout of a member. -/
def memberText (key : String) (value : List Char) : List Char :=
  key.toList ++ ' ' :: '=' :: ' ' :: value

theorem blanks_space : Blanks [' '] :=
  List.forall_mem_singleton.mpr rfl

theorem member_memberText {W : Document → List Char → Prop} {key : String} {d : Document}
    {value : List Char} (hkey : IsBare key) (h : W d value) :
    Member W (key, d) (memberText key value) := by
  refine ⟨[], [' '], ' ' :: value, hkey, blanks_nil, blanks_space, ?_, ?_⟩
  · exact ⟨[' '], value, [], blanks_space, h, blanks_nil, by simp⟩
  · simp [memberText]

/-- The text writes a scalar, or a list or a table of documents that `W` writes. -/
inductive WritesOver (W : Document → List Char → Prop) : Document → List Char → Prop
  | scalar {d : Document} {text : List Char} (h : WritesScalar d text) : WritesOver W d text
  | list {items : List Document} {written : List Char} (h : Items (Padded W) items written) :
      WritesOver W (.list items) ('[' :: (written ++ [']']))
  | emptyList {blanks : List Char} (h : Blanks blanks) :
      WritesOver W (.list []) ('[' :: (blanks ++ [']']))
  | table {members : List (String × Document)} {written : List Char}
      (h : Items (Member W) members written) (hkeys : (members.map Prod.fst).Nodup) :
      WritesOver W (.table members) ('\x7b' :: (written ++ ['\x7d']))
  | emptyTable {blanks : List Char} (h : Blanks blanks) :
      WritesOver W (.table []) ('\x7b' :: (blanks ++ ['\x7d']))

/-- The text writes the document, with at most so many lists and tables inside one another. -/
def Writes : Nat → Document → List Char → Prop
  | 0 => WritesScalar
  | depth + 1 => WritesOver (Writes depth)

theorem WritesScalar.writes {d : Document} {text : List Char} (h : WritesScalar d text) :
    ∀ depth, Writes depth d text
  | 0 => h
  | _ + 1 => .scalar h

/-! ### Reading scalars -/

/-- Scalars start with a digit, a sign or a quote. -/
theorem WritesScalar.exists_first {d : Document} {text : List Char} (h : WritesScalar d text) :
    ∃ c r, text = c :: r ∧ (c.isDigit || ['+', '-', '"'].contains c) = true := by
  cases h with
  | integer w _ =>
      cases w with
      | decimal sign first more hsign hdigits hzero =>
          obtain ⟨c, r, hcons, hc, -⟩ :=
            IntegerSpelling.exists_first hsign (hdigits first List.mem_cons_self) (spaced more)
          refine ⟨c, r, hcons, ?_⟩
          simp only [Bool.or_eq_true, beq_iff_eq] at hc
          rcases hc with (hc | rfl) | rfl
          · simp [hc]
          · decide
          · decide
      | radix r first more hdigits => exact ⟨'0', _, rfl, by decide⟩
  | moment w =>
      obtain ⟨c, r, hcons, hc⟩ := exists_first_of_moment w
      exact ⟨c, r, hcons, by simp [hc]⟩
  | text _ => exact ⟨'"', _, rfl, by decide⟩

theorem WritesScalar.starts {d : Document} {text : List Char} (h : WritesScalar d text) :
    Starts text := by
  obtain ⟨c, r, hcons, hc⟩ := h.exists_first
  refine ⟨c, r, hcons, ?_⟩
  simp only [opensValue, Bool.or_eq_true] at hc ⊢
  exact hc.imp_right fun hc => by simp at hc ⊢; tauto

theorem WritesScalar.scalar_append {d : Document} {text : List Char} (h : WritesScalar d text)
    {rest : List Char} (hrest : EndsValue rest) : scalar (text ++ rest) = some (d, rest) := by
  cases h with
  | integer w hsigned => exact scalar_integer w hsigned hrest
  | moment w => exact scalar_moment w hrest
  | text h =>
      rw [List.cons_append, List.append_assoc]
      exact scalar_text h hrest

theorem value_succ_of_ne {c : Char} (hlist : c ≠ '[') (htable : c ≠ '\x7b') (depth : Nat)
    (r : List Char) : value (depth + 1) (c :: r) = scalar (c :: r) := by
  unfold value
  split <;> simp_all

/-- A scalar is read at any depth. -/
theorem WritesScalar.value_append {d : Document} {text : List Char} (h : WritesScalar d text)
    (depth : Nat) {rest : List Char} (hrest : EndsValue rest) :
    value depth (text ++ rest) = some (d, rest) := by
  have hscalar := h.scalar_append hrest
  cases depth with
  | zero => exact hscalar
  | succ depth =>
      obtain ⟨c, r, rfl, hc⟩ := h.exists_first
      have hne (d : Char) (hd : (d.isDigit || ['+', '-', '"'].contains d) = false) : c ≠ d := by
        rintro rfl
        rw [hc] at hd
        cases hd
      exact (value_succ_of_ne (hne _ rfl) (hne _ rfl) depth _).trans hscalar

theorem Writes.starts {depth : Nat} {d : Document} {text : List Char} (h : Writes depth d text) :
    Starts text := by
  cases depth with
  | zero => exact WritesScalar.starts h
  | succ depth =>
      cases h with
      | scalar h => exact h.starts
      | list _ | emptyList _ => exact ⟨'[', _, rfl, by decide⟩
      | table _ _ | emptyTable _ => exact ⟨'\x7b', _, rfl, by decide⟩

/-! ### Reading lists and tables -/

theorem Padded.append {depth : Nat} {read : Reader Document}
    (hread : ∀ {d text rest}, Writes depth d text → EndsValue rest →
      read (text ++ rest) = some (d, rest)) :
    ReadsItems (do layout; let d ← read; layout; return d) (Padded (Writes depth)) := by
  rintro d _ ⟨before, inner, behind, hbefore, h, hbehind, rfl⟩ rest hrest
  have hlayout := layout_append hbefore (h.starts.append (behind ++ rest)).dropLayout
  rw [List.append_assoc, List.append_assoc, bind_of_eq_some hlayout,
    bind_of_eq_some (hread h (hrest.endsValue hbehind)),
    bind_of_eq_some (layout_append hbehind hrest.dropLayout)]
  rfl

theorem IsBare.exists_first {key : String} (h : IsBare key) :
    ∃ c r, key.toList = c :: r ∧ isKeyChar c = true := by
  obtain ⟨c, r, hcons⟩ := List.exists_cons_of_ne_nil h.1
  exact ⟨c, r, hcons, h.2 c (hcons ▸ List.mem_cons_self)⟩

theorem IsBare.endsRun {key : String} (h : IsBare key) (rest : List Char) :
    EndsRun isSpace (key.toList ++ rest) := by
  obtain ⟨c, r, hcons, hc⟩ := h.exists_first
  rw [hcons]
  refine endsRun_cons ?_ _
  cases hspace : isSpace c with
  | false => rfl
  | true =>
      have hblank : c = ' ' ∨ c = '\t' := by simpa [isSpace] using hspace
      rcases hblank with rfl | rfl <;> cases hc

theorem keyPart_append {k : String} (hk : IsBare k) {rest : List Char}
    (hrest : EndsRun isKeyChar rest) : keyPart (k.toList ++ rest) = some (k, rest) := by
  have hline : lineText (k.toList ++ rest) = none := by
    obtain ⟨c, r, hcons, hc⟩ := hk.exists_first
    rw [hcons]
    exact lineText_eq_none (by rintro rfl; cases hc) (by rintro rfl; cases hc) (r ++ rest)
  have hspan := span1_eq_some_iff.mpr ⟨span_append hk.2 hrest, hk.1⟩
  unfold keyPart
  rw [orElse_of_eq_none hline, bind_of_eq_some hspan, String.ofList_toList]
  rfl

/-- A key without dots is read up to the mark behind it. -/
theorem key_append {k : String} (hk : IsBare k) {before afterKey : List Char}
    (hbefore : Blanks before) (hafterKey : Blanks afterKey) {c : Char} (hc : c ∈ ['=', ']'])
    (rest : List Char) :
    key (before ++ k.toList ++ afterKey ++ c :: rest) = some (([], k), c :: rest) := by
  have hmark : isSpace c = false ∧ isKeyChar c = false ∧ c ≠ '.' :=
    (by decide : ∀ c ∈ ['=', ']'], isSpace c = false ∧ isKeyChar c = false ∧ c ≠ '.') c hc
  have hends : EndsRun isKeyChar (afterKey ++ c :: rest) := by
    cases afterKey with
    | nil => exact endsRun_cons hmark.2.1 rest
    | cons d afterKey =>
        refine endsRun_cons ?_ _
        have hd : d = ' ' ∨ d = '\t' := by simpa [isSpace] using hafterKey d List.mem_cons_self
        rcases hd with rfl | rfl <;> decide
  have hpart : (do spaces; let k ← keyPart; spaces; return k : Reader String)
      (before ++ k.toList ++ afterKey ++ c :: rest) = some (k, c :: rest) := by
    rw [List.append_assoc, List.append_assoc,
      bind_of_eq_some (spaces_append hbefore (hk.endsRun _)),
      bind_of_eq_some (keyPart_append hk hends),
      bind_of_eq_some (spaces_append hafterKey (endsRun_cons hmark.1 rest))]
    rfl
  unfold key
  rw [bind_of_eq_some (separated_of_single hpart (if_neg hmark.2.2))]
  rfl

theorem assignment_append {depth : Nat} {read : Reader Document}
    (hread : ∀ {d text rest}, Writes depth d text → EndsValue rest →
      read (text ++ rest) = some (d, rest))
    {k : String} (hk : IsBare k) {before afterKey before' inner : List Char} {d : Document}
    (hbefore : Blanks before) (hafterKey : Blanks afterKey) (hbefore' : Blanks before')
    (h : Writes depth d inner) {rest : List Char} (hrest : EndsValue rest) :
    assignment read (before ++ k.toList ++ afterKey ++ '=' :: (before' ++ (inner ++ rest))) =
      some (⟨[], k, d⟩, rest) := by
  unfold assignment
  rw [bind_of_eq_some (key_append hk hbefore hafterKey (by decide) _)]
  refine (bind_of_eq_some (char_cons '=' _)).trans ?_
  rw [bind_of_eq_some (spaces_append hbefore' (h.starts.append _).endsRun),
    bind_of_eq_some (hread h hrest)]
  rfl

theorem Member.append {depth : Nat} {read : Reader Document}
    (hread : ∀ {d text rest}, Writes depth d text → EndsValue rest →
      read (text ++ rest) = some (d, rest)) :
    ReadsItems (do let a ← assignment read; spaces; return a)
      fun a text => a.parents = [] ∧ Member (Writes depth) (a.key, a.value) text := by
  rintro ⟨parents, k, d⟩ _ ⟨rfl, before, afterKey, _, hk, hbefore, hafterKey,
    ⟨before', inner, behind, hbefore', h, hbehind, rfl⟩, rfl⟩ rest hrest
  have hassignment := assignment_append hread hk hbefore hafterKey hbefore' h
    (hrest.endsValue hbehind)
  have htext : before ++ k.toList ++ afterKey ++ '=' :: (before' ++ inner ++ behind) ++ rest =
      before ++ k.toList ++ afterKey ++ '=' :: (before' ++ (inner ++ (behind ++ rest))) := by
    simp only [List.append_assoc, List.cons_append]
  rw [htext, bind_of_eq_some hassignment, bind_of_eq_some (spaces_append hbehind hrest.endsRun)]
  rfl

/-! ### Assignments -/

theorem alter_of_notMem {key : String} {change : Option Entry → Option Entry} {es : Entries}
    (h : key ∉ es.map Prod.fst) :
    Entries.alter key change es = (change none).map fun e => es ++ [(key, e)] := by
  induction es with
  | nil =>
      unfold Entries.alter
      cases change none <;> rfl
  | cons e es ih =>
      obtain ⟨k, e⟩ := e
      have hne : k ≠ key := fun heq => h (by simp [heq])
      unfold Entries.alter
      rw [if_neg hne, ih fun hmem => h (List.mem_cons_of_mem k hmem)]
      cases change none <;> rfl

/-- Assignments to keys that are new and differ from one another add a value each. -/
theorem assignAll_append {members : List (String × Document)} {es : Entries}
    (hkeys : (es.map Prod.fst ++ members.map Prod.fst).Nodup) :
    assignAll (members.map fun m => ⟨[], m.1, m.2⟩) es =
      some (es ++ members.map fun m => (m.1, .value m.2)) := by
  induction members generalizing es with
  | nil =>
      rw [List.map_nil, List.map_nil, List.append_nil]
      rfl
  | cons m members ih =>
      obtain ⟨k, d⟩ := m
      have hnew : k ∉ es.map Prod.fst := fun hmem =>
        (List.nodup_append.mp hkeys).2.2 k hmem k List.mem_cons_self rfl
      have hassign : es.assign k d [] = some (es ++ [(k, .value d)]) := by
        unfold Entries.assign
        rw [alter_of_notMem hnew]
        rfl
      have hrest : assignAll (members.map fun m => ⟨[], m.1, m.2⟩) (es ++ [(k, .value d)]) =
          some (es ++ [(k, .value d)] ++ members.map fun m => (m.1, .value m.2)) :=
        ih (by simpa using hkeys)
      rw [List.append_assoc] at hrest
      unfold assignAll at hrest ⊢
      rw [List.map_cons, List.foldlM_cons, hassign]
      exact hrest

theorem membersOf_values (members : List (String × Document)) :
    membersOf (members.map fun m => (m.1, .value m.2)) = members := by
  induction members with
  | nil => rfl
  | cons m members ih =>
      rw [List.map_cons, membersOf, ih, Entry.document]

/-! ### Reading documents -/

theorem listTail_items {depth : Nat} {read : Reader Document}
    (hread : ∀ {d text rest}, Writes depth d text → EndsValue rest →
      read (text ++ rest) = some (d, rest))
    {items : List Document} {written : List Char} (h : Items (Padded (Writes depth)) items written)
    (rest : List Char) : listTail read (written ++ ']' :: rest) = some (.list items, rest) := by
  have hmark : AtMark (']' :: rest) := ⟨']', rest, rfl, by decide⟩
  refine (bind_of_eq_some (h.separated (Padded.append hread) hmark rfl)).trans ?_
  -- there is an item, so a comma may stand behind the last one
  cases h <;> rfl

theorem listTail_blanks {read : Reader Document} {blanks rest : List Char} (h : Blanks blanks)
    (hread : read (']' :: rest) = none) :
    listTail read (blanks ++ ']' :: rest) = some (.list [], rest) := by
  have hlayout : layout (blanks ++ ']' :: rest) = some ((), ']' :: rest) := layout_append h rfl
  have hrefuses : (do layout; let d ← read; layout; return d : Reader Document)
      (blanks ++ ']' :: rest) = none := by
    rw [bind_of_eq_some hlayout]
    exact bind_of_eq_none hread
  refine (bind_of_eq_some (separated_of_eq_none hrefuses)).trans ?_
  refine (bind_of_eq_some hlayout).trans ?_
  exact (bind_of_eq_some (char_cons ']' rest)).trans rfl

theorem tableTail_members {depth : Nat} {read : Reader Document}
    (hread : ∀ {d text rest}, Writes depth d text → EndsValue rest →
      read (text ++ rest) = some (d, rest))
    {members : List (String × Document)} {written : List Char}
    (h : Items (Member (Writes depth)) members written) (hkeys : (members.map Prod.fst).Nodup)
    (rest : List Char) :
    tableTail read (written ++ '\x7d' :: rest) = some (.table members, rest) := by
  have hmark : AtMark ('\x7d' :: rest) := ⟨'\x7d', rest, rfl, by decide⟩
  have hspaces : spaces ('\x7d' :: rest) = some ((), '\x7d' :: rest) :=
    spaces_append blanks_nil (endsRun_cons (by decide) rest)
  have hitems := (h.map (f := fun m => (⟨[], m.1, m.2⟩ : Assignment))
    (fun hm => ⟨rfl, hm⟩)).separated (Member.append hread) hmark rfl
  refine (bind_of_eq_some hitems).trans ?_
  refine (bind_of_eq_some hspaces).trans ?_
  refine (bind_of_eq_some (char_cons '\x7d' rest)).trans ?_
  rw [@assignAll_append members [] hkeys, List.nil_append]
  exact congrArg (fun ms => some (Document.table ms, rest)) (membersOf_values members)

theorem tableTail_blanks (read : Reader Document) {blanks : List Char} (h : Blanks blanks)
    (rest : List Char) :
    tableTail read (blanks ++ '\x7d' :: rest) = some (.table [], rest) := by
  have hspaces : spaces (blanks ++ '\x7d' :: rest) = some ((), '\x7d' :: rest) :=
    spaces_append h (endsRun_cons (by decide) rest)
  have hrefuses : (do let a ← assignment read; spaces; return a : Reader Assignment)
      (blanks ++ '\x7d' :: rest) = none := by
    refine bind_of_eq_none (bind_of_eq_none ?_)
    refine (bind_of_eq_some (separated_of_eq_none ?_)).trans rfl
    rw [bind_of_eq_some hspaces]
    rfl
  refine (bind_of_eq_some (separated_of_eq_none hrefuses)).trans ?_
  refine (bind_of_eq_some hspaces).trans ?_
  exact (bind_of_eq_some (char_cons '\x7d' rest)).trans rfl

theorem value_bracket_eq_none (depth : Nat) (rest : List Char) :
    value depth (']' :: rest) = none := by
  cases depth <;> rfl

/-- **What is written is read**, with as much depth as it was written with. -/
theorem Writes.value_append {depth : Nat} : ∀ {d : Document} {text rest : List Char},
    Writes depth d text → EndsValue rest → value depth (text ++ rest) = some (d, rest) := by
  induction depth with
  | zero => exact fun h hrest => WritesScalar.value_append h 0 hrest
  | succ depth ih =>
      intro d text rest h hrest
      cases h with
      | scalar h => exact h.value_append (depth + 1) hrest
      | list h =>
          rw [List.cons_append, List.append_assoc]
          exact listTail_items ih h rest
      | emptyList h =>
          rw [List.cons_append, List.append_assoc]
          exact listTail_blanks h (value_bracket_eq_none depth rest)
      | table h hkeys =>
          rw [List.cons_append, List.append_assoc]
          exact tableTail_members ih h hkeys rest
      | emptyTable h =>
          rw [List.cons_append, List.append_assoc]
          exact tableTail_blanks (value depth) h rest

end SeriesQuery.Toml
