/-
Files.

Where no file of a tree lies within another, every name on the way to a file leads to a directory,
so walking the file's own path ends at the file and reads it.  The other way round, walking moves
as the parts of the path say and never otherwise, so whatever a path reads stands in the tree under
the names that the path comes down to.

A run asks for no path but those of its command.  So it ends alike wherever these read alike, and
to read them beforehand is enough.
-/
import Mathlib.Data.List.Pairwise
import Mathlib.Tactic.ByContra
import Mathlib.Tactic.MkIffOfInductiveProp
import Mathlib.Tactic.SplitIfs
import SeriesQuery.CommandLine.Run
import SeriesQuery.Proofs.Composed

namespace SeriesQuery

/-! ### Names on a path -/

namespace FileTree

/-- A name that leads one step down. -/
@[mk_iff]
structure IsName (name : String) : Prop where
  ne_empty : name ≠ ""
  ne_here : name ≠ "."
  ne_above : name ≠ ".."
  noSlash : '/' ∉ name.toList

instance : DecidablePred IsName := fun name =>
  decidable_of_iff' _ (isName_iff name)

/-- The path that goes down by the names. -/
def path (names : List String) : String :=
  "/".intercalate names

variable {names : List String}

theorem pathParts_path (hne : names ≠ []) (h : ∀ name ∈ names, IsName name) :
    pathParts (path names) = names := by
  have hcut : (path names).toList.splitOn '/' = names.map String.toList := by
    unfold path
    rw [String.toList_intercalate]
    refine List.splitOn_intercalate '/' ?_ (by simpa using hne)
    intro characters hmem
    obtain ⟨name, hname, rfl⟩ := List.mem_map.mp hmem
    exact (h name hname).noSlash
  unfold pathParts
  rw [hcut, List.map_map]
  exact (List.map_congr_left fun name _ => String.ofList_toList).trans (List.map_id names)

/-- Such a path is not empty and starts below the top. -/
theorem path_relative (hne : names ≠ []) (h : ∀ name ∈ names, IsName name) :
    ((path names).startsWith "/" || (path names).isEmpty) = false := by
  obtain ⟨first, rest, rfl⟩ := List.exists_cons_of_ne_nil hne
  have hfirst := h first (List.mem_cons_self ..)
  obtain ⟨c, characters, hc⟩ := List.exists_cons_of_ne_nil
    (fun hnil => hfirst.ne_empty (String.toList_eq_nil_iff.mp hnil))
  have hslash : c ≠ '/' := by
    rintro rfl
    exact hfirst.noSlash (hc ▸ List.mem_cons_self ..)
  have hpath : ∃ others, (path (first :: rest)).toList = c :: others := by
    unfold path
    cases rest with
    | nil => exact ⟨characters, by simpa using hc⟩
    | cons second rest =>
        rw [String.intercalate_cons_cons, String.toList_append, String.toList_append, hc]
        exact ⟨_, rfl⟩
  obtain ⟨others, hothers⟩ := hpath
  rw [Bool.or_eq_false_iff]
  constructor
  · rw [← Bool.not_eq_true, String.startsWith_string_iff, hothers]
    rintro ⟨_, hlead⟩
    exact hslash (List.cons.inj hlead).1.symm
  · rw [← Bool.not_eq_true, String.isEmpty_iff]
    intro hempty
    rw [hempty] at hothers
    cases hothers

/-! ### Walking -/

/-- Paths of files that can stand side by side: each goes down by names, and none leads to the
    place of another or through it. -/
@[mk_iff]
structure Apart (paths : List (List String)) : Prop where
  named : ∀ names ∈ paths, names ≠ [] ∧ ∀ name ∈ names, IsName name
  pairwise : paths.Pairwise fun names names' => ¬names <+: names' ∧ ¬names' <+: names

instance : DecidablePred Apart := fun paths =>
  decidable_of_iff' _ (apart_iff paths)

theorem Apart.unique {files : List (List String × ByteArray)}
    (h : Apart (files.map Prod.fst)) {f g : List String × ByteArray} (hf : f ∈ files)
    (hg : g ∈ files) (hfg : f.1 <+: g.1) : f = g := by
  have hsymm : Std.Symm fun f g : List String × ByteArray => ¬f.1 <+: g.1 ∧ ¬g.1 <+: f.1 :=
    ⟨fun _ _ hfg => hfg.symm⟩
  by_contra hne
  exact ((List.pairwise_map.mp h.pairwise).forall hf hg hne).1 hfg

variable {t : FileTree} {here there : List String} {bytes : ByteArray}

theorem mem_of_lookup (h : t.files.lookup names = some bytes) : (names, bytes) ∈ t.files := by
  obtain ⟨before, after, hfiles, -⟩ := List.lookup_eq_some_iff.mp h
  rw [hfiles]
  exact List.mem_append_right before (List.mem_cons_self ..)

theorem place_eq_file_iff : t.place here = .file bytes ↔ t.files.lookup here = some bytes := by
  unfold place
  cases t.files.lookup here with
  | some found => simp
  | none =>
      dsimp only
      split <;> simp

/-- At the place of a file there is the file. -/
theorem place_of_mem (h : Apart (t.files.map Prod.fst)) (hf : (names, bytes) ∈ t.files) :
    t.place names = .file bytes := by
  rw [place_eq_file_iff]
  cases hlookup : t.files.lookup names with
  | none =>
      have hne := List.lookup_eq_none_iff.mp hlookup _ hf
      simp at hne
  | some found =>
      rw [(Prod.mk.inj (h.unique (mem_of_lookup hlookup) hf (List.prefix_refl names))).2]

/-- On the way to a file there are directories. -/
theorem place_above (h : Apart (t.files.map Prod.fst)) (hf : (names, bytes) ∈ t.files)
    (hlead : here <+: names) (hne : here ≠ names) : t.place here = .directory := by
  have hnone : t.files.lookup here = none := by
    refine List.lookup_eq_none_iff.mpr fun g hg => ?_
    simp only [bne_iff_ne]
    rintro rfl
    exact hne (congrArg Prod.fst (h.unique hg hf hlead))
  have hany : (t.files.any fun f => here.isPrefixOf f.1) = true :=
    List.any_eq_true.mpr ⟨_, hf, List.isPrefixOf_iff_prefix.mpr hlead⟩
  unfold place
  rw [hnone]
  simp [hany]

/-- Names lead down as long as they lead from directory to directory. -/
theorem walk_of_names (h : ∀ name ∈ names, IsName name) : ∀ {here},
    (∀ before, before <+: names → before ≠ names → t.place (here ++ before) = .directory) →
      t.walk here names = .ok (here ++ names) := by
  induction names with
  | nil =>
      intro here _
      rw [List.append_nil]
      rfl
  | cons name names ih =>
      intro here hplaces
      obtain ⟨hname, hnames⟩ := List.forall_mem_cons.mp h
      have hhere : t.place here = .directory := by
        simpa using hplaces [] List.nil_prefix (by simp)
      have hbelow : t.walk (here ++ [name]) names = .ok (here ++ name :: names) := by
        rw [ih hnames, List.append_assoc, List.singleton_append]
        intro before hlead hne
        rw [List.append_assoc, List.singleton_append]
        exact hplaces (name :: before) (List.cons_prefix_cons.mpr ⟨rfl, hlead⟩)
          (by simpa using hne)
      unfold walk
      rw [hhere]
      dsimp only
      rw [if_neg (not_or.mpr ⟨hname.ne_empty, hname.ne_here⟩), if_neg hname.ne_above, hbelow]

/-- The place that a part of a path leads to. -/
def enter (here : List String) (part : String) : List String :=
  if part = "" ∨ part = "." then here
  else if part = ".." then here.dropLast
  else here ++ [part]

/-- A walk that gets somewhere gets where the parts say. -/
theorem eq_of_walk {parts : List String} (h : t.walk here parts = .ok there) :
    there = parts.foldl enter here := by
  induction parts generalizing here with
  | nil =>
      cases h
      rfl
  | cons part parts ih =>
      unfold walk at h
      rw [List.foldl_cons, enter]
      cases hplace : t.place here with
      | nothing =>
          rw [hplace] at h
          cases h
      | file bytes =>
          rw [hplace] at h
          cases h
      | directory =>
          rw [hplace] at h
          dsimp only at h
          split_ifs at h ⊢ with hstay habove htop
          · exact ih h
          · exact ih h
          · exact ih h

/-! ### Reading -/

/-- The tree of files by their paths is the tree of these files. -/
theorem ofList_path {files : List (List String × ByteArray)} (h : Apart (files.map Prod.fst)) :
    ofList (files.map fun f => (path f.1, f.2)) = ⟨files⟩ := by
  unfold ofList
  rw [List.map_map]
  refine congrArg FileTree.mk ((List.map_congr_left fun f hf => ?_).trans (List.map_id files))
  obtain ⟨hne, hnames⟩ := h.named f.1 (List.mem_map_of_mem hf)
  have hkept : f.1.filter (fun part => part != "" && part != ".") = f.1 := by
    refine List.filter_eq_self.mpr fun name hname => ?_
    simp [(hnames name hname).ne_empty, (hnames name hname).ne_here]
  show ((pathParts (path f.1)).filter _, f.2) = _
  rw [pathParts_path hne hnames, hkept]
  rfl

theorem source_path (h : Apart (t.files.map Prod.fst)) (hf : (names, bytes) ∈ t.files) :
    t.source (path names) = .ok bytes := by
  obtain ⟨hne, hnames⟩ := h.named names (List.mem_map_of_mem hf)
  have hwalk : t.walk [] names = .ok names :=
    walk_of_names hnames fun before => place_above h hf
  unfold source
  rw [path_relative hne hnames, pathParts_path hne hnames, hwalk]
  simp only [Bool.false_eq_true, if_false, place_of_mem h hf]

theorem mem_of_source {p : String} (h : t.source p = .ok bytes) :
    ((pathParts p).foldl enter [], bytes) ∈ t.files := by
  unfold source at h
  split_ifs at h
  cases hwalk : t.walk [] (pathParts p) with
  | error reason =>
      rw [hwalk] at h
      cases h
  | ok there =>
      rw [hwalk] at h
      dsimp only at h
      cases hplace : t.place there with
      | nothing =>
          rw [hplace] at h
          cases h
      | directory =>
          rw [hplace] at h
          cases h
      | file found =>
          rw [hplace] at h
          cases h
          rw [← eq_of_walk hwalk]
          exact mem_of_lookup (place_eq_file_iff.mp hplace)

/--
**A tree of files reads as its files.**  Of files that stand side by side, each is read by its
path; and what any path reads is the file below the names that the path comes down to.
-/
theorem source_ofList {files : List (List String × ByteArray)} (h : Apart (files.map Prod.fst)) :
    (∀ f ∈ files, (ofList (files.map fun f => (path f.1, f.2))).source (path f.1) = .ok f.2) ∧
    ∀ p bytes, (ofList (files.map fun f => (path f.1, f.2))).source p = .ok bytes →
      ((pathParts p).foldl enter [], bytes) ∈ files := by
  rw [ofList_path h]
  exact ⟨fun f hf => source_path (t := ⟨files⟩) h hf, fun p bytes => mem_of_source⟩

end FileTree

/-! ### Texts -/

/-- A file whose bytes are those of a text reads as the text. -/
theorem FileSource.readText_of_toUTF8 {source : FileSource} {path text : String}
    (h : source path = .ok text.toUTF8) : source.readText path = .ok text := by
  have hdecode : String.fromUTF8? text.toUTF8 = some text := by
    unfold String.fromUTF8?
    rw [String.toUTF8_eq_toByteArray, dif_pos text.isValidUTF8]
    rfl
  unfold readText
  rw [h]
  dsimp only
  rw [hdecode]

/-- A file whose name says JSON is read as JSON. -/
theorem Batch.load_of_json {source : FileSource} {path text : String}
    (h : source path = .ok text.toUTF8) (hpath : extension? path = some "json") :
    Batch.load source path = Batch.ofJson text := by
  unfold load
  rw [FileSource.readText_of_toUTF8 h, Composed.ok_bind, if_pos hpath]

/-! ### The files of a run -/

section Runs

variable {source source' : FileSource} {usual environment : Option String}

theorem FileSource.readText_congr {path : String} (h : source path = source' path) :
    source.readText path = source'.readText path := by
  unfold readText
  rw [h]

theorem Settings.load_congr {named : Option String}
    (h : ∀ path, path ∈ (named <|> usual) → source path = source' path) :
    load source named usual = load source' named usual := by
  unfold load
  cases named with
  | some path =>
      have hpath := h path rfl
      dsimp only
      rw [FileSource.readText_congr hpath]
  | none =>
      cases usual with
      | none => rfl
      | some path =>
          have hpath := h path rfl
          dsimp only
          rw [FileSource.readText_congr hpath, hpath]

theorem Batch.load_congr {file : String} (h : source file = source' file) :
    load source file = load source' file := by
  unfold load
  rw [FileSource.readText_congr h]

/-- A command reads its own paths only. -/
theorem Invocation.run_congr {i : Invocation}
    (h : ∀ path ∈ i.paths usual, source path = source' path) :
    i.run source usual = i.run source' usual := by
  unfold run
  unfold paths at h
  cases hcommand : i.command with
  | duration tokens => rfl
  | build file format =>
      rw [hcommand] at h
      have hsettings : Settings.load source i.settingsPath usual =
          Settings.load source' i.settingsPath usual :=
        Settings.load_congr fun path hpath =>
          h path (List.mem_append_left _ (Option.mem_toList.mpr hpath))
      have hfile : Batch.load source file = Batch.load source' file :=
        Batch.load_congr (h file (List.mem_append_right _ (List.mem_singleton_self file)))
      dsimp only
      unfold build
      rw [hsettings, hfile]

/-- **A run ends alike on file systems that agree on the paths of its command.** -/
theorem runArguments_congr {args : List String}
    (h : ∀ i, Invocation.ofArguments? environment args = some i →
      ∀ path ∈ i.paths usual, source path = source' path) :
    runArguments source usual environment args = runArguments source' usual environment args := by
  unfold runArguments
  cases hargs : Invocation.ofArguments? environment args with
  | none => rfl
  | some i => exact Invocation.run_congr (h i hargs)

end Runs

end SeriesQuery
