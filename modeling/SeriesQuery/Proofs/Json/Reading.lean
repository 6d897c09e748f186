/-
Reading what a tree is written as.

A value that cannot be read blocks whatever encloses it, up to the whole text, and otherwise each
value is read from exactly its part of the text.  So a text that a tree writes is read as
`Tree.read` reads the tree, which looks at the tokens one by one.
-/
import SeriesQuery.Proofs.Json.Pieces

namespace SeriesQuery.Json

open Text Text.Reader

/-! ### Values -/

theorem listTail_eq (item : Reader Document) :
    listTail item = separated (padded item) (Reader.char ',') >>= closing ']' .list :=
  rfl

theorem tableTail_eq (item : Reader Document) :
    tableTail item = separated (member item) (Reader.char ',') >>= closing '\x7d' .table :=
  rfl

theorem Writes.starts {tree : Tree} {text : List Char} (h : Writes tree text) : Starts text := by
  cases h with
  | word w =>
      obtain ⟨c, text, htext⟩ := List.exists_cons_of_ne_nil w.nonempty
      rw [htext]
      exact starts_of_word (w.chars c (htext ▸ List.mem_cons_self))
  | quoted q => exact ⟨'"', _, rfl, by decide, by decide⟩
  | list _ _ => exact ⟨'[', _, rfl, by decide, by decide⟩
  | table _ _ => exact ⟨'\x7b', _, rfl, by decide, by decide⟩

/-- What is no list and no table is read as a scalar at any depth. -/
theorem value_eq_scalar (depth : Nat) {s : List Char} (hlist : ∀ r, s ≠ '[' :: r)
    (htable : ∀ r, s ≠ '\x7b' :: r) : value depth s = scalar s := by
  cases depth with
  | zero => rfl
  | succ depth =>
      unfold value
      split
      · exact absurd rfl (hlist _)
      · exact absurd rfl (htable _)
      · rfl

theorem Word.value_append (w : Word) (depth : Nat) (rest : List Char) :
    value depth (w.text ++ rest) = unquoted (w.text ++ rest) := by
  obtain ⟨c, text, htext⟩ := List.exists_cons_of_ne_nil w.nonempty
  have hc : isWordChar c = true := w.chars c (htext ▸ List.mem_cons_self)
  have hne {d : Char} (hd : isWordChar d = false) : c ≠ d := by
    rintro rfl
    rw [hc] at hd
    cases hd
  rw [htext, List.cons_append,
    value_eq_scalar depth (fun r h => hne rfl (List.head_eq_of_cons_eq h))
      fun r h => hne rfl (List.head_eq_of_cons_eq h),
    scalar_eq, orElse_apply, bind_apply]
  simp [quotedText, Reader.char, hne (d := '"') rfl]

/-- A word has no quotation marks. -/
theorem Word.scalar_eq_unquoted (w : Word) : scalar w.text = unquoted w.text := by
  have h := w.value_append 0 []
  rwa [List.append_nil] at h

/-- A word is read to its end, or a part of it is left. -/
theorem Word.reads (w : Word) (depth : Nat) :
    Reads (value depth) w.text (whole scalar w.text) := by
  have happend {rest : List Char} (hrest : EndsRun isWordChar rest) :
      value depth (w.text ++ rest) =
        (unquoted w.text).map fun (d, left) => (d, left ++ rest) := by
    rw [w.value_append, local_unquoted.append w.chars hrest]
  unfold whole
  rw [w.scalar_eq_unquoted]
  split
  · rename_i d hread
    intro rest hrest
    rw [happend hrest, hread]
    rfl
  · rename_i hread
    intro rest d left hrest hleft
    rw [happend hrest] at hleft
    obtain ⟨⟨d, left⟩, hword, heq⟩ := Option.map_eq_some_iff.mp hleft
    cases heq
    obtain ⟨taken, htaken, -⟩ := local_unquoted.takes hword
    cases left with
    | nil => exact absurd hword (hread d)
    | cons c left =>
        refine (starts_of_word (w.chars c ?_)).blocked
        rw [htaken]
        exact List.mem_append_right _ List.mem_cons_self

theorem Quoted.value_append (q : Quoted) (depth : Nat) (rest : List Char) :
    value depth (q.text ++ rest) = (q.read.map .text).map fun d => (d, rest) := by
  have hquote := q.text_append rest
  rw [value_eq_scalar depth (by simp [hquote]) (by simp [hquote]), scalar_eq, orElse_apply,
    bind_apply, q.quotedText_append]
  cases q.read with
  | none =>
      rw [hquote]
      rfl
  | some s => rfl

/-- A member between blanks. -/
theorem Reads.member {item : Reader Document} {text : List Char} {o : Option Document}
    (h : Reads item text o) (key : Quoted) {before afterKey afterColon behind : List Char}
    (hbefore : Blanks before) (hafterKey : Blanks afterKey) (hafterColon : Blanks afterColon)
    (hbehind : Blanks behind) (hstart : Starts text) :
    ReadsPiece (member item)
      (before ++ key.text ++ afterKey ++ ':' :: (afterColon ++ text ++ behind))
      (key.read >>= fun s => o >>= fun d => some (s, d)) := by
  have hread (rest : List Char) :
      Json.member item
          (before ++ key.text ++ afterKey ++ ':' :: (afterColon ++ text ++ behind) ++ rest) =
        key.read.bind fun s => (item (text ++ (behind ++ rest))).map fun (d, left) =>
          ((s, d), left.dropWhile isSpace) := by
    have hskip : (before ++ key.text ++ afterKey ++ ':' :: (afterColon ++ text ++ behind) ++
        rest).dropWhile isSpace =
          key.text ++ (afterKey ++ ':' :: (afterColon ++ (text ++ (behind ++ rest)))) := by
      simp only [List.append_assoc, List.cons_append]
      rw [dropWhile_blanks hbefore, key.text_append]
      exact List.dropWhile_cons_of_neg (by decide)
    show (quotedText (List.dropWhile isSpace _)).bind _ = _
    rw [hskip, key.quotedText_append]
    cases key.read with
    | none => rfl
    | some s =>
        show (Reader.char ':' (List.dropWhile isSpace _)).bind _ = _
        rw [dropWhile_blanks hafterKey]
        show (item (List.dropWhile isSpace _)).bind _ = (item _).map _
        rw [dropWhile_blanks hafterColon, (hstart.append _).dropWhile]
        cases item (text ++ (behind ++ rest)) <;> rfl
  cases hkey : key.read with
  | none =>
      intro rest a left _ hleft
      rw [hread, hkey] at hleft
      cases hleft
  | some s =>
      simp only [hkey, Option.bind_some] at hread
      cases o with
      | some d =>
          intro rest hrest
          rw [hread, h _ (endsRun_blanks hbehind hrest)]
          exact congrArg (fun x => some ((s, d), x)) (dropWhile_blanks hbehind rest)
      | none =>
          intro rest a left hrest hleft
          rw [hread] at hleft
          obtain ⟨⟨d, left⟩, hleft', heq⟩ := Option.map_eq_some_iff.mp hleft
          cases heq
          exact (h _ d left (endsRun_blanks hbehind hrest) hleft').dropWhile

/-- A list, from what its items are read as. -/
theorem ReadsAll.list {depth : Nat} {pieces : List (List Char)} {ds : Option (List Document)}
    (h : ReadsAll (padded (value depth)) pieces ds) {blanks : List Char} (hblanks : Blanks blanks) :
    Reads (value (depth + 1)) ('[' :: (joined pieces ++ blanks ++ [']'])) (ds.map .list) := by
  refine .of_eq fun rest => ?_
  have hrefuses : padded (value depth) (blanks ++ ']' :: rest) = none := by
    rw [padded_apply, dropWhile_blanks hblanks]
    cases depth <;> rfl
  show listTail (value depth) (joined pieces ++ blanks ++ [']'] ++ rest) = _
  rw [List.append_assoc, List.singleton_append, listTail_eq,
    h.separated_closing (.inl rfl) hblanks rest hrefuses]
  cases ds <;> rfl

/-- A table, from what its members are read as. -/
theorem ReadsAll.table {depth : Nat} {pieces : List (List Char)}
    {ds : Option (List (String × Document))} (h : ReadsAll (member (value depth)) pieces ds)
    {blanks : List Char} (hblanks : Blanks blanks) :
    Reads (value (depth + 1)) ('\x7b' :: (joined pieces ++ blanks ++ ['\x7d']))
      (ds.map .table) := by
  refine .of_eq fun rest => ?_
  have hrefuses : member (value depth) (blanks ++ '\x7d' :: rest) = none := by
    show (quotedText (List.dropWhile isSpace _)).bind _ = none
    rw [dropWhile_blanks hblanks]
    rfl
  show tableTail (value depth) (joined pieces ++ blanks ++ ['\x7d'] ++ rest) = _
  rw [List.append_assoc, List.singleton_append, tableTail_eq,
    h.separated_closing (.inr rfl) hblanks rest hrefuses]
  cases ds <;> rfl

mutual

/-- The text of a tree is read as the tree is read. -/
theorem Writes.reads {tree : Tree} {text : List Char} :
    Writes tree text → ∀ depth, Reads (value depth) text (tree.read depth)
  | .word w, depth => by cases depth <;> exact w.reads _
  | .quoted q, depth => by cases depth <;> exact .of_eq (q.value_append _)
  | .list _ _, 0 => .of_eq fun _ => rfl
  | .table _ _, 0 => .of_eq fun _ => rfl
  | .list h hblanks, depth + 1 => (h.readsAll depth).list hblanks
  | .table h hblanks, depth + 1 => (h.readsAll depth).table hblanks

theorem WritesItems.readsAll {items : List Tree} {pieces : List (List Char)} :
    WritesItems items pieces →
      ∀ depth, ReadsAll (padded (value depth)) pieces (readItems depth items)
  | .nil, _ => .nil
  | .cons hbefore h hbehind hs, depth => by
      refine .cons (fun rest => ?_) ((h.reads depth).padded hbefore hbehind h.starts)
        (hs.readsAll depth)
      simp only [List.append_assoc]
      exact (h.starts.append _).blocked.behind hbefore

theorem WritesMembers.readsAll {members : List (Quoted × Tree)} {pieces : List (List Char)} :
    WritesMembers members pieces →
      ∀ depth, ReadsAll (member (value depth)) pieces (readMembers depth members)
  | .nil, _ => .nil
  | @WritesMembers.cons key tree _ _ _ _ _ _ _ hbefore hafterKey hafterColon h hbehind hs,
      depth => by
      have hmember := (h.reads depth).member key hbefore hafterKey hafterColon hbehind h.starts
      have hstart := (Writes.quoted key).starts
      have hall := ReadsAll.cons (fun rest => ?_) hmember (hs.readsAll depth)
      · unfold readMembers
        generalize key.read = s at hall ⊢
        generalize tree.read depth = d at hall ⊢
        cases s <;> cases d <;> exact hall
      · simp only [List.append_assoc]
        exact (hstart.append _).blocked.behind hbefore

end

/-- **A text is read as the tree that it writes is read, token by token; it is refused if a token
    stands for nothing or the tree is too deep.** -/
theorem Tree.WrittenBy.document? {tree : Tree} {text : String} (h : tree.WrittenBy text) :
    document? text = tree.read maxDepth := by
  obtain ⟨before, inner, behind, hbefore, hbehind, hinner, htext⟩ := h
  have hread := (hinner.reads maxDepth).padded hbefore hbehind hinner.starts
  show whole (padded (value maxDepth)) text.toList = _
  rw [htext]
  generalize tree.read maxDepth = o at hread
  unfold whole
  cases o with
  | some d =>
      have hd := hread [] (endsRun_nil _)
      rw [List.append_nil] at hd
      rw [hd]
      rfl
  | none =>
      split
      · rename_i d hd
        rw [← List.append_nil (before ++ inner ++ behind)] at hd
        obtain ⟨_, _, hblocked, -⟩ := hread [] d [] (endsRun_nil _) hd
        cases hblocked
      · rfl

end SeriesQuery.Json
