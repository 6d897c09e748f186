/-
Normalising duration tokens stops at the first that is none.

The tokens are printed one by one while they are read, so what has been printed when the first bad
one is met stays printed, and nothing behind it is looked at.  Every list of tokens is cut in one
place: those in front all read, and what is left is empty or starts with a token that does not.
The cut alone tells the lines, the exit code and the error.  A canonical token reads back and
starts with a digit, so canonical tokens are taken for operands and none of them stops a run.
-/
import SeriesQuery.CommandLine.Run
import SeriesQuery.Proofs.Duration.Canonical
import SeriesQuery.Proofs.Literal

namespace SeriesQuery

/-! ### Where a list of tokens is cut -/

/-- The tokens that read, each with its duration, up to the first that does not. -/
structure ReadUpTo (tokens : List String) (read : List (String × Duration)) (rest : List String) :
    Prop where
  /-- The tokens are those that read, and behind them what is left. -/
  split : tokens = read.map Prod.fst ++ rest
  /-- Each token in front reads as its duration. -/
  reads : ∀ r ∈ read, Duration.parse r.1 = .ok r.2
  /-- What is left, if anything, starts with a token that does not read. -/
  stops : ∀ t ∈ rest.head?, ∃ e, Duration.parse t = .error e

namespace ReadUpTo

variable {tokens : List String} {read : List (String × Duration)} {rest : List String}

theorem nil : ReadUpTo [] [] [] :=
  ⟨rfl, nofun, nofun⟩

theorem stop {t : String} {e : ComposeError} (h : Duration.parse t = .error e)
    (tokens : List String) : ReadUpTo (t :: tokens) [] (t :: tokens) := by
  refine ⟨rfl, nofun, ?_⟩
  rintro t ⟨⟩
  exact ⟨e, h⟩

theorem cons {t : String} {d : Duration} (hd : Duration.parse t = .ok d)
    (h : ReadUpTo tokens read rest) : ReadUpTo (t :: tokens) ((t, d) :: read) rest := by
  refine ⟨?_, List.forall_mem_cons.mpr ⟨hd, h.reads⟩, h.stops⟩
  rw [h.split, List.map_cons, List.cons_append]

/-- Every list of tokens is cut somewhere. -/
theorem exists_cut (tokens : List String) : ∃ read rest, ReadUpTo tokens read rest := by
  induction tokens with
  | nil => exact ⟨[], [], nil⟩
  | cons t tokens ih =>
      cases ht : Duration.parse t with
      | ok d =>
          obtain ⟨read, rest, h⟩ := ih
          exact ⟨(t, d) :: read, rest, h.cons ht⟩
      | error e => exact ⟨[], t :: tokens, stop ht tokens⟩

/-- And in one place only. -/
theorem unique {read' : List (String × Duration)} {rest' : List String}
    (h : ReadUpTo tokens read rest) (h' : ReadUpTo tokens read' rest') :
    read = read' ∧ rest = rest' := by
  -- A token that reads on one side cannot be where the other side stops.
  have hclash {r : String × Duration} {more rest : List String}
      (hr : Duration.parse r.1 = .ok r.2) (hrest : r.1 :: more = rest)
      (hstops : ∀ t ∈ rest.head?, ∃ e, Duration.parse t = .error e) : False := by
    obtain ⟨e, he⟩ := hstops r.1 (by rw [← hrest]; rfl)
    rw [he] at hr
    cases hr
  induction read generalizing tokens read' with
  | nil =>
      cases read' with
      | nil => exact ⟨rfl, h.split.symm.trans h'.split⟩
      | cons r read' =>
          have hsplit := h'.split.symm.trans h.split
          exact (hclash (h'.reads r List.mem_cons_self) hsplit h.stops).elim
  | cons r read ih =>
      obtain ⟨hr, hread⟩ := List.forall_mem_cons.mp h.reads
      cases read' with
      | nil =>
          have hsplit := h.split.symm.trans h'.split
          exact (hclash hr hsplit h'.stops).elim
      | cons r' read' =>
          obtain ⟨hr', hread'⟩ := List.forall_mem_cons.mp h'.reads
          obtain ⟨htoken, hmore⟩ := List.cons.inj (h.split.symm.trans h'.split)
          have hduration : r.2 = r'.2 := by
            rw [htoken, hr'] at hr
            exact (Except.ok.inj hr).symm
          obtain ⟨rfl, hrest⟩ := ih ⟨rfl, hread, h.stops⟩ ⟨hmore, hread', h'.stops⟩
          exact ⟨by rw [Prod.ext htoken hduration], hrest⟩

/-- Nothing is left exactly when every token reads. -/
theorem rest_eq_nil_iff (h : ReadUpTo tokens read rest) :
    rest = [] ↔ ∀ t ∈ tokens, ∃ d, Duration.parse t = .ok d := by
  rw [h.split]
  constructor
  · rintro rfl t ht
    rw [List.append_nil] at ht
    obtain ⟨r, hr, rfl⟩ := List.mem_map.mp ht
    exact ⟨r.2, h.reads r hr⟩
  · intro hall
    by_contra hne
    obtain ⟨bad, after, rfl⟩ := List.exists_cons_of_ne_nil hne
    obtain ⟨e, he⟩ := h.stops bad rfl
    obtain ⟨d, hd⟩ := hall bad (by simp)
    rw [he] at hd
    cases hd

end ReadUpTo

/-! ### What is printed -/

/-- The lines of tokens and their durations. -/
def durationLines (read : List (String × Duration)) : String :=
  String.join (read.map fun r => padEnd 12 r.1 ++ " → " ++ r.2.token ++ "\n")

theorem durationLines_cons (r : String × Duration) (read : List (String × Duration)) :
    durationLines (r :: read) = durationLine r.1 r.2 ++ durationLines read :=
  String.join_cons

/-- Tokens that read are printed, and the run goes on with what is left. -/
theorem normalise_append {read : List (String × Duration)}
    (h : ∀ r ∈ read, Duration.parse r.1 = .ok r.2) (printed : String) (rest : List String) :
    normalise printed (read.map Prod.fst ++ rest) =
      normalise (printed ++ durationLines read) rest := by
  induction read generalizing printed with
  | nil =>
      show normalise printed rest = normalise (printed ++ "") rest
      rw [String.append_empty]
  | cons r read ih =>
      obtain ⟨hr, hread⟩ := List.forall_mem_cons.mp h
      rw [List.map_cons, List.cons_append, normalise, hr, durationLines_cons,
        ← String.append_assoc]
      exact ih hread _

namespace ReadUpTo

variable {tokens : List String} {read : List (String × Duration)}

theorem normalise_of_all (h : ReadUpTo tokens read []) :
    normalise "" tokens = .success (durationLines read) := by
  rw [h.split, normalise_append h.reads, String.empty_append, normalise]

theorem normalise_of_bad {bad : String} {after : List String} {e : ComposeError}
    (h : ReadUpTo tokens read (bad :: after)) (he : Duration.parse bad = .error e) :
    normalise "" tokens = .failure (durationLines read) e.message := by
  rw [h.split, normalise_append h.reads, String.empty_append, normalise, he]

/-- The cut tells the lines that are printed, whether the run succeeds, and its error. -/
theorem outcome {rest : List String} (h : ReadUpTo tokens read rest) :
    (normalise "" tokens).output = durationLines read ∧
      ((normalise "" tokens).exitCode = 0 ↔ rest = []) ∧
      ((normalise "" tokens).exitCode ≠ 0 →
        (normalise "" tokens).exitCode = 1 ∧
        ∃ bad after e, rest = bad :: after ∧ Duration.parse bad = .error e ∧
          (normalise "" tokens).message? = some e.message) := by
  cases rest with
  | nil =>
      rw [h.normalise_of_all]
      exact ⟨rfl, ⟨fun _ => rfl, fun _ => rfl⟩, fun hexit => absurd rfl hexit⟩
  | cons bad after =>
      obtain ⟨e, he⟩ := h.stops bad rfl
      rw [h.normalise_of_bad he]
      exact ⟨rfl, ⟨nofun, nofun⟩, fun _ => ⟨rfl, bad, after, e, rfl, he, rfl⟩⟩

end ReadUpTo

/-! ### Canonical tokens as arguments -/

/-- A canonical token starts with a digit, and so with no hyphen. -/
theorem Duration.head?_token (d : Duration) : d.token.toList.head? ≠ some '-' := by
  obtain ⟨u, -, -, htoken⟩ := d.exists_token_eq
  obtain ⟨c, cs, hdigits, hc⟩ := exists_first_digit (d.nanos / u.nanos)
  rw [htoken, String.toList_append, hdigits]
  rintro ⟨⟩
  cases hc

namespace Invocation

/-- What does not start with a hyphen is an operand. -/
theorem items?_of_head {arg : String} (h : arg.toList.head? ≠ some '-') (takesFormat : Bool) :
    items? takesFormat arg = some [.operand arg] := by
  unfold items?
  split
  · rename_i hlist
    rw [hlist] at h
    exact absurd rfl h
  · rename_i hlist
    rw [hlist] at h
    exact absurd rfl h
  · rfl

/-- Arguments that do not start with a hyphen are taken as operands, in order. -/
theorem behindCommand_of_heads (takesFormat : Bool) {args : List String}
    (h : ∀ arg ∈ args, arg.toList.head? ≠ some '-') (g : Given) :
    behindCommand takesFormat g args = some { g with operands := g.operands ++ args } := by
  induction args generalizing g with
  | nil => rw [behindCommand, List.append_nil]
  | cons arg args ih =>
      obtain ⟨harg, hargs⟩ := List.forall_mem_cons.mp h
      have hne : arg ≠ "--" := by
        rintro rfl
        exact harg rfl
      have hstep : behindCommand takesFormat g (arg :: args) =
          behindCommand takesFormat { g with operands := g.operands ++ [arg] } args := by
        rw [behindCommand.eq_3 _ _ _ _ hne, items?_of_head harg]
        rfl
      rw [hstep, ih hargs, List.append_assoc, List.singleton_append]

/-- The command takes any tokens that do not start with a hyphen, at least one of them. -/
theorem ofArguments?_duration {environment : Option String} (henvironment : environment ≠ some "")
    {tokens : List String} (h : ∀ t ∈ tokens, t.toList.head? ≠ some '-') (hne : tokens ≠ []) :
    ofArguments? environment ("duration" :: tokens) =
      some ⟨environment, false, .duration tokens⟩ := by
  have hbefore : beforeCommand .nothing ("duration" :: tokens) =
      some (.nothing, "duration" :: tokens) := by
    have hplain : looksLikeOption "duration" = false := by decide +kernel
    rw [beforeCommand.eq_3 _ _ _ (by decide), hplain]
    rfl
  have hsettings : settingsPath? environment .nothing ⟨none, false, none, tokens⟩ =
      some environment :=
    if_neg fun hempty => henvironment hempty.1
  obtain ⟨t, ts, rfl⟩ := List.exists_cons_of_ne_nil hne
  unfold ofArguments?
  rw [hbefore]
  show (behindCommand _ _ _).bind _ = _
  rw [behindCommand_of_heads _ h]
  show (settingsPath? environment .nothing ⟨none, false, none, t :: ts⟩).bind _ = _
  rw [hsettings]
  rfl

end Invocation

/-- The tokens of durations all read. -/
theorem readUpTo_tokens (ds : List Duration) :
    ReadUpTo (ds.map Duration.token) (ds.map fun d => (d.token, d)) [] := by
  refine ⟨?_, List.forall_mem_map.mpr fun d _ => d.parse_token, nofun⟩
  rw [List.append_nil, List.map_map]
  rfl

/-! ### Runs -/

/--
**A run that normalises tokens prints the lines of those in front of the first bad one.**  Whatever
tokens the arguments give, the run prints a line for each token up to the first that is no
duration, succeeds exactly when there is none, and otherwise ends with the error of that token.
Each canonical token it prints reads as the duration of its token.  The canonical tokens, given to
the command again, are printed each as its own canonical token, and so they are as plain arguments
if there is one at all: without a token there is no command.
-/
theorem run_duration_stops_at_first {source : FileSource} {usual environment : Option String}
    {args : List String} {i : Invocation} {tokens : List String}
    (hargs : Invocation.ofArguments? environment args = some i)
    (hcommand : i.command = .duration tokens) :
    ∃ read rest, ReadUpTo tokens read rest ∧
      (runArguments source usual environment args).output = durationLines read ∧
      ((runArguments source usual environment args).exitCode = 0 ↔
        ∀ t ∈ tokens, ∃ d, Duration.parse t = .ok d) ∧
      ((runArguments source usual environment args).exitCode ≠ 0 →
        (runArguments source usual environment args).exitCode = 1 ∧
        ∃ bad after e, rest = bad :: after ∧ Duration.parse bad = .error e ∧
          (runArguments source usual environment args).message? = some e.message) ∧
      (∀ r ∈ read, Duration.parse r.2.token = .ok r.2 ∧ Duration.parse r.1 = .ok r.2) ∧
      (∀ (again : Invocation) (source' : FileSource) (usual' : Option String),
        again.command = .duration (read.map fun r => r.2.token) →
          again.run source' usual' =
            .success (durationLines (read.map fun r => (r.2.token, r.2)))) ∧
      (read ≠ [] → ∀ (source' : FileSource) (usual' environment' : Option String),
        environment' ≠ some "" →
          runArguments source' usual' environment' ("duration" :: read.map fun r => r.2.token) =
            .success (durationLines (read.map fun r => (r.2.token, r.2)))) := by
  obtain ⟨read, rest, hcut⟩ := ReadUpTo.exists_cut tokens
  have hrun : runArguments source usual environment args = normalise "" tokens := by
    unfold runArguments Invocation.run
    rw [hargs]
    dsimp only
    rw [hcommand]
  have hagain : ReadUpTo (read.map fun r => r.2.token) (read.map fun r => (r.2.token, r.2)) [] := by
    have h := readUpTo_tokens (read.map Prod.snd)
    rw [List.map_map, List.map_map] at h
    exact h
  obtain ⟨houtput, hexit, hfailure⟩ := hcut.outcome
  rw [hrun]
  refine ⟨read, rest, hcut, houtput, hexit.trans hcut.rest_eq_nil_iff, hfailure,
    fun r hr => ⟨r.2.parse_token, hcut.reads r hr⟩, ?_, ?_⟩
  · intro again source' usual' hduration
    unfold Invocation.run
    rw [hduration]
    exact hagain.normalise_of_all
  · intro hne source' usual' environment' henvironment
    have hheads : ∀ t ∈ read.map fun r => r.2.token, t.toList.head? ≠ some '-' :=
      List.forall_mem_map.mpr fun r _ => r.2.head?_token
    unfold runArguments
    rw [Invocation.ofArguments?_duration henvironment hheads (by simpa using hne)]
    exact hagain.normalise_of_all

/-- Of four tokens the third is bad; the second has blanks around it. -/
theorem run_duration_of_four_tokens :
    let source : FileSource := fun _ => .error .missing
    let args := ["duration", "5400s", " 1h ", "x", "2h"]
    let again := ["duration", "90m", "1h"]
    Invocation.ofArguments? none args =
        some ⟨none, false, .duration ["5400s", " 1h ", "x", "2h"]⟩ ∧
      (runArguments source none none args).output = "5400s        → 90m\n 1h          → 1h\n" ∧
      (runArguments source none none args).exitCode = 1 ∧
      runArguments source none none again =
        .success "90m          → 90m\n1h           → 1h\n" := by
  intro source args again
  let long : Duration := ⟨5400000000000, by decide⟩
  let short : Duration := ⟨3600000000000, by decide⟩
  have hargs : Invocation.ofArguments? none args =
      some ⟨none, false, .duration ["5400s", " 1h ", "x", "2h"]⟩ := by decide +kernel
  have hcut : ReadUpTo ["5400s", " 1h ", "x", "2h"] [("5400s", long), (" 1h ", short)]
      ["x", "2h"] := by
    have hbad : Duration.parse "x" = .error (.invalidDuration "x") := by decide +kernel
    exact .cons (by decide +kernel) (.cons (by decide +kernel) (.stop hbad ["2h"]))
  obtain ⟨read, rest, hread, houtput, hexit, hfailure, -, -, hagain⟩ :=
    @run_duration_stops_at_first source none none _ _ _ hargs rfl
  obtain ⟨rfl, rfl⟩ := hread.unique hcut
  have hbad : (runArguments source none none args).exitCode ≠ 0 := by
    intro hzero
    have hnone := hcut.rest_eq_nil_iff.mpr (hexit.mp hzero)
    cases hnone
  have htokens : [("5400s", long), (" 1h ", short)].map (fun r => r.2.token) = ["90m", "1h"] := by
    decide +kernel
  have hrun := hagain (List.cons_ne_nil _ _) source none none nofun
  rw [htokens] at hrun
  exact ⟨hargs, houtput.trans (by decide +kernel), (hfailure hbad).1,
    hrun.trans (by decide +kernel)⟩

end SeriesQuery
