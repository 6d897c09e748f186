/-
Times as values.

A table under the key `time` holds a timestamp as a text, or a date-time of TOML.  The text is read
leniently; the date-time is printed and must have a date, a time of day and an offset.  For a
date-time between quotes and for the same one without them both come to the same point in time, and
any timestamp that is printed comes back to the second.
-/
import SeriesQuery.Proofs.Draft.OneCondition
import SeriesQuery.Proofs.Time.Instants

namespace SeriesQuery

/-! ### Tables with a time -/

namespace ValueDraft

/-- A text under the key is a timestamp if it reads as one. -/
theorem ofDocument?_time (s : String) :
    ofDocument? (.table [("time", .text s)]) = time <$> Timestamp.ofText? s := by
  have hread : ofDocument? (.table [("time", .text s)]) =
      ((time <$> Timestamp.ofText? s) <|> none) := rfl
  rw [hread]
  cases Timestamp.ofText? s <;> rfl

/-- A date-time of TOML under the key stays one. -/
theorem ofDocument?_moment (w : Moment.Spelling) :
    ofDocument? (.table [("time", w.moment.document)]) = some (moment w.moment) := by
  have hread : ofDocument? (.table [("time", w.moment.document)]) =
      moment <$> Moment.ofText? w.moment.text := rfl
  rw [hread, Moment.ofText?_text]
  rfl

end ValueDraft

/-! ### Printed timestamps -/

namespace Json

/-- The table with a text under the key. -/
def timeTree (s : String) : Tree :=
  tableTree [("time", textTree s)]

theorem read_timeTree (depth : Nat) (s : String) :
    (timeTree s).read (depth + 1) = some (.table [("time", .text s)]) := by
  unfold timeTree tableTree
  simp only [List.map_cons, List.map_nil, Tree.read, readMembers, read_quotedOf, read_textTree]
  rfl

end Json

/-- **Printed timestamps read back.**  The text that a timestamp is printed as is accepted as a
    timestamp under its key, which differs from it in the fraction only and composes to the same
    literal, in files of either kind.  So timestamps that are printed alike are in the same second,
    and in the same one of the two if it is a leap second. -/
theorem printed_timestamps_read_back (t : Timestamp) :
    ∃ u : Timestamp, u.seconds = t.seconds ∧ u.nanos = t.nanos / 1000000000 * 1000000000 ∧
      ValueDraft.ofDocument? (.table [("time", .text (Value.timestamp t).plain)]) =
        some (.time u) ∧
      Value.literal <$> (ValueDraft.time u).value = .ok (Value.timestamp t).literal ∧
      (∀ text, (Json.timeTree (Value.timestamp t).plain).WrittenBy text →
        Json.document? text >>= ValueDraft.ofDocument? = some (.time u)) ∧
      Json.ComposesTo (Json.timeTree (Value.timestamp t).plain) (.ok (Value.timestamp t).literal) ∧
      Toml.ComposesTo (.table [("time", .text (Value.timestamp t).plain)])
        (.ok (Value.timestamp t).literal) ∧
      ∀ t' : Timestamp, (Value.timestamp t').plain = (Value.timestamp t).plain →
        t'.seconds = t.seconds ∧ t'.nanos / 1000000000 = t.nanos / 1000000000 := by
  have hdraft : ValueDraft.ofDocument? (.table [("time", .text (Value.timestamp t).plain)]) =
      some (.time t.wholeSecond) := by
    show ValueDraft.ofDocument? (.table [("time", .text t.text)]) = _
    rw [ValueDraft.ofDocument?_time, t.ofText?_text]
    rfl
  have hliteral : Value.literal <$> (ValueDraft.time t.wholeSecond).value =
      .ok (Value.timestamp t).literal := by
    show Except.ok ("'" ++ t.wholeSecond.text ++ "'") = _
    rw [t.text_wholeSecond]
    rfl
  refine ⟨t.wholeSecond, rfl, rfl, hdraft, hliteral, ?_, ?_, ?_, ?_⟩
  · intro text htext
    rw [htext.document?, show Json.maxDepth = Json.maxDepth - 1 + 1 from rfl, Json.read_timeTree]
    exact hdraft
  · rw [← hliteral]
    exact Json.composesTo_of_read (Json.read_timeTree _ _) hdraft
  · rw [← hliteral]
    exact Toml.composesTo_of_draft hdraft
  · intro t' hsame
    have hread : some t'.wholeSecond = some t.wholeSecond := by
      rw [← t'.ofText?_text, ← t.ofText?_text]
      exact congrArg Timestamp.ofText? hsame
    have hseconds := congrArg Timestamp.seconds (Option.some.inj hread)
    have hnanos := congrArg Timestamp.nanos (Option.some.inj hread)
    exact ⟨hseconds, Nat.eq_of_mul_eq_mul_right (by decide) hnanos⟩

/-- The middle of a leap second at the end of the year -1. -/
theorem printed_leap_second_reads_back :
    let t : Timestamp := ⟨-62167219201, 1500000000, by decide, by decide, by decide⟩
    t.text = "-0001-12-31T23:59:60Z" ∧
      ∃ u, u.seconds = -62167219201 ∧ u.nanos = 1000000000 ∧
        ValueDraft.ofDocument? (.table [("time", .text "-0001-12-31T23:59:60Z")]) =
          some (.time u) := by
  intro t
  have htext : t.text = "-0001-12-31T23:59:60Z" := by decide
  obtain ⟨u, hseconds, hnanos, hdraft, -⟩ := printed_timestamps_read_back t
  refine ⟨htext, u, hseconds, hnanos.trans (by decide), ?_⟩
  rw [← htext]
  exact hdraft

/-! ### Date-times of TOML -/

theorem ComposeError.message_incomplete (text : String) :
    (invalidMoment text .incomplete).message = "Configuration error: timestamp " ++ text ++
      " needs a date, time and offset: premature end of input" := by
  have hreason : " needs a date, time and offset: premature end of input" =
      " needs a date, time and offset: " ++ MomentError.incomplete.message := rfl
  rw [hreason, ← String.append_assoc]
  rfl

namespace Moment.Spelling

/-- What a date-time composes to: the point in time in UTC, unless a part of one is missing. -/
def composed : Spelling → Composed String
  | offsetDateTime d _ c o _ _ => .ok ("'" ++ Timestamp.utcText d c o ++ "'")
  | w => .error (.invalidMoment w.moment.text .incomplete)

/-- With a date, a time of day and an offset, a date-time is the point in time that is written. -/
theorem timestamp_offsetDateTime {d : Date} {mark : Char} (c : Clock.Spelling)
    (o : Offset.Spelling) (hd : d.HasFourDigits) (hmark : mark ∈ marks) {t : Timestamp}
    (ht : Timestamp.ofLocal? d c.clock (o.ahead * 60) = some t) :
    (offsetDateTime d mark c o hd hmark).moment.timestamp = .ok t := by
  rw [← o.seconds_offset] at ht
  have hhour : ¬ 23 < c.clock.hour := Nat.not_lt.mpr c.hour_le
  simp [timestamp, moment, hhour, ht]

/-- A date-time composes as its point in time, and with a part of one missing it does not. -/
theorem literal_value (w : Spelling) : Value.literal <$> w.moment.value = w.composed := by
  cases w with
  | offsetDateTime d mark c o hd hmark =>
      obtain ⟨t, ht⟩ := Timestamp.exists_ofLocal? hd c o
      unfold Moment.value
      rw [timestamp_offsetDateTime c o hd hmark ht]
      show Except.ok ("'" ++ t.text ++ "'") = _
      rw [Timestamp.text_of_ofLocal? hd.valid ht]
      rfl
  | localDateTime d mark c hd hmark =>
      have hhour : ¬ 23 < c.clock.hour := Nat.not_lt.mpr c.hour_le
      have hincomplete : (localDateTime d mark c hd hmark).moment.timestamp = .error .incomplete :=
        if_neg hhour
      unfold Moment.value
      rw [hincomplete]
      rfl
  | localDate d hd => rfl
  | localTime c => rfl

end Moment.Spelling

namespace Toml

/-- The usual layout of a table with the key. -/
def timeText (value : List Char) : List Char :=
  '\x7b' :: (' ' :: (memberText "time" value ++ [' ']) ++ ['\x7d'])

theorem writes_timeText {depth : Nat} {d : Document} {value : List Char}
    (h : Writes depth d value) :
    Writes (depth + 1) (.table [("time", d)]) (timeText value) := by
  have hpadded : Padded (Writes depth) d (' ' :: (value ++ [' '])) :=
    ⟨[' '], value, [' '], blanks_space, h, blanks_space, by simp⟩
  have hmember : Member (Writes depth) ("time", d) (' ' :: (memberText "time" value ++ [' '])) :=
    ⟨[' '], [' '], _, (by decide : IsBare "time"), blanks_space, blanks_space, hpadded,
      by simp [memberText]⟩
  exact .table (.single hmember) (by decide : ["time"].Nodup)

end Toml

/-- **A date-time composes to its point in time in UTC, with quotes and without.**  Without quotes
    it is read as a date-time of TOML; with an offset it has the literal that the text between
    quotes has, which is the date and the time of day in UTC to the second.  A file with a date-time
    that lacks a date, a time of day or an offset is read, and composing it fails. -/
theorem toml_times_agree (w : Moment.Spelling) :
    let bare := Document.table [("time", w.moment.document)]
    let quoted := Document.table [("time", .text (String.ofList w.text))]
    (∀ depth rest, Toml.EndsValue rest →
      Toml.value (depth + 1) (Toml.timeText w.text ++ rest) = some (bare, rest) ∧
      Toml.value (depth + 1) (Toml.timeText ('"' :: (w.text ++ ['"'])) ++ rest) =
        some (quoted, rest)) ∧
    ValueDraft.ofDocument? bare = some (.moment w.moment) ∧
    Value.literal <$> (ValueDraft.moment w.moment).value = w.composed ∧
    Toml.ComposesTo bare w.composed ∧
    (∀ d mark c o hd hmark, w = .offsetDateTime d mark c o hd hmark →
      w.composed = .ok ("'" ++ Timestamp.utcText d c o ++ "'") ∧
      (∃ t, ValueDraft.ofDocument? quoted = some (.time t) ∧
        (ValueDraft.moment w.moment).value = .ok (.timestamp t)) ∧
      Toml.ComposesTo quoted w.composed) ∧
    (w.moment.date = none ∨ w.moment.time = none ∨ w.moment.offset = none →
      (∃ e, w.composed = .error e ∧
        e.message = "Configuration error: timestamp " ++ w.moment.text ++
          " needs a date, time and offset: premature end of input") ∧
      ∀ s measurement expression text,
        Toml.WritesStatements [oneCondition s measurement expression bare] text →
          ∃ batch, Batch.ofToml text = .ok batch) := by
  intro bare quoted
  have hbare := ValueDraft.ofDocument?_moment w
  refine ⟨fun depth rest hrest => ⟨?_, ?_⟩, hbare, w.literal_value, ?_, ?_, ?_⟩
  · exact (Toml.writes_timeText (Toml.WritesScalar.writes (.moment w) depth)).value_append hrest
  · have htext := Toml.writesBasic_verbatim (Toml.isVerbatim_of_mem_moment w)
    exact (Toml.writes_timeText (Toml.WritesScalar.writes (.text htext) depth)).value_append hrest
  · rw [← w.literal_value]
    exact Toml.composesTo_of_draft hbare
  · rintro d mark c o hd hmark rfl
    obtain ⟨t, ht⟩ := Timestamp.exists_ofLocal? hd c o
    have hquoted : ValueDraft.ofDocument? quoted = some (.time t) := by
      rw [ValueDraft.ofDocument?_time]
      show ValueDraft.time <$> Timestamp.ofText? (String.ofList (d.text.toList ++ _)) = _
      rw [Timestamp.Lenient.ofText?_spelled hd.valid hmark, ht]
      rfl
    have hvalue : (Moment.Spelling.offsetDateTime d mark c o hd hmark).moment.value =
        .ok (.timestamp t) := by
      unfold Moment.value
      rw [Moment.Spelling.timestamp_offsetDateTime c o hd hmark ht]
    refine ⟨rfl, ⟨t, hquoted, hvalue⟩, ?_⟩
    rw [← Moment.Spelling.literal_value, hvalue]
    exact Toml.composesTo_of_draft hquoted
  · intro hlacks
    refine ⟨?_, fun s measurement expression text htext =>
      ⟨_, Toml.ofToml_oneCondition hbare htext⟩⟩
    cases w with
    | offsetDateTime d mark c o hd hmark => simp [Moment.Spelling.moment] at hlacks
    | localDateTime d mark c hd hmark => exact ⟨_, rfl, ComposeError.message_incomplete _⟩
    | localDate d hd => exact ⟨_, rfl, ComposeError.message_incomplete _⟩
    | localTime c => exact ⟨_, rfl, ComposeError.message_incomplete _⟩

/-- Half an hour after midnight of the first day of the year 0, in a leap second, an hour ahead of
    UTC; and a date alone. -/
theorem toml_times_agree_around_year_zero :
    let file (value : String) := "[[statement]]\nkind = \"delete\"\nfrom = \"cpu\"\n" ++
      "where = [\x7bexpr = \"time < ?\",values = [\x7b time = " ++ value ++ " \x7d]\x7d]\n"
    let composed (value : String) := Batch.ofToml (file value) >>= Batch.compile ⟨none, none, .text⟩
    composed "0000-01-01 00:30:60.5+01:00" =
        .ok ["DELETE FROM \"cpu\" WHERE time < '-0001-12-31T23:30:60Z'"] ∧
      composed "\"0000-01-01 00:30:60.5+01:00\"" =
        .ok ["DELETE FROM \"cpu\" WHERE time < '-0001-12-31T23:30:60Z'"] ∧
      composed "2015-08-18" = .error (.invalidMoment "2015-08-18" .incomplete) := by
  intro file composed
  have hfile {d : Document} {value : String} {written : List Char}
      (h : Toml.WritesScalar d written) (htext : file value = String.ofList
        (Toml.oneConditionText .delete "cpu".toList "time < ?".toList (Toml.timeText written))) :
      Toml.WritesStatements [oneCondition .delete "cpu" "time < ?" (.table [("time", d)])]
        (file value) := by
    rw [htext]
    exact Toml.writesStatements_oneConditionText .delete
      (Toml.writesBasic_verbatim (by decide)) (Toml.writesBasic_verbatim (by decide))
      (Toml.writes_timeText (h.writes (Toml.maxDepth - 4)))
  let timed : Moment.Spelling := .offsetDateTime ⟨0, 1, 1⟩ ' '
    ⟨0, 30, 60, some ['5'], by decide, by decide, by decide, by simp⟩
    (.numeric '+' 1 0 (by decide) (by decide) (by decide)) ⟨by decide, by decide, by decide⟩
    (by decide)
  let date : Moment.Spelling := .localDate ⟨2015, 8, 18⟩ ⟨by decide, by decide, by decide⟩
  obtain ⟨-, -, -, hbare, hoffset, -⟩ := toml_times_agree timed
  obtain ⟨-, -, hquoted⟩ := hoffset _ _ _ _ _ _ rfl
  obtain ⟨-, -, -, hincomplete, -, -⟩ := toml_times_agree date
  have hdate : date.composed = .error (.invalidMoment "2015-08-18" .incomplete) := by
    have htext : date.moment.text = "2015-08-18" := by decide +kernel
    show Except.error (ComposeError.invalidMoment date.moment.text .incomplete) = _
    rw [htext]
  rw [hdate] at hincomplete
  refine ⟨?_, ?_, ?_⟩
  · exact hbare .delete ⟨none, none, .text⟩ "cpu" "time < " "" _ (by decide) (by decide)
      (hfile (.moment timed) (by decide +kernel))
  · exact hquoted .delete ⟨none, none, .text⟩ "cpu" "time < " "" _ (by decide) (by decide)
      (hfile (.text (Toml.writesBasic_verbatim (Toml.isVerbatim_of_mem_moment timed)))
        (by decide +kernel))
  · exact hincomplete .delete ⟨none, none, .text⟩ "cpu" "time < " "" _ (by decide) (by decide)
      (hfile (.moment date) (by decide +kernel))

end SeriesQuery
