import TickForge.ReplayReport
import TickForge.ReplayScriptsModel

/-!
# Both scripts read the report alike

The two scripts find the lines of the report by different tests. On everything the
replay program prints they agree: they get back the ten best levels of either side
and a table of exactly the printed fields.
-/

namespace TickForge.ReportReading

open Std (ExtTreeMap)
open KeyedTotals DelimitedText MarketEventModel OrderBookModel CsvRoundTrip
open ReplayEngineModel ReplayReportModel ReplayReport ReplayMainModel ReplayScriptsModel

set_option autoImplicit false

section Fields

/-- The comparison stores a field's value under its label. -/
theorem read_report_field (reading : ReplayReading) (field : Text × Text)
    (isLabel : fieldLabel field.1 = true)
    (figures : ∀ letter ∈ field.2, isFigure letter = true) :
    readReportLine reading (fieldLine field) =
      some { reading with summary := reading.summary.insert field.1 field.2 } := by
  have quiet := starts_label (label_quiet isLabel) []
  rw [List.append_nil] at quiet
  rw [field_line_eq, readReportLine]
  simp only [occurs_colon, Bool.not_true, Bool.false_eq_true, if_false,
    partition_append ':' _ _ (label_letters isLabel).1, strip_label isLabel, strip_value figures,
    quiet, Bool.false_and]

end Fields

section Lines

theorem read_report_title (reading : ReplayReading) :
    readReportLine reading "TickForge replay summary".toList = some reading := by
  have noColon : occursIn ":".toList "TickForge replay summary".toList = false := by decide
  simp only [readReportLine, noColon, Bool.not_false, if_true]

theorem strip_top_key (n : Nat) (stem : Text) (solid : ∀ letter ∈ stem, isPySpace letter = false) :
    strip ("top_".toList ++ Nat.toDigits 10 n ++ stem) =
      "top_".toList ++ Nat.toDigits 10 n ++ stem := by
  apply trimmed_of_no_blank
  intro letter listed
  rcases List.mem_append.mp listed with inFront | inStem
  · rcases List.mem_append.mp inFront with inName | inDigits
    · have name : ∀ other ∈ "top_".toList, isPySpace other = false := solid_of_all (by decide)
      exact name letter inName
    · exact (figure_solid (to_digits_figures n letter inDigits)).1
  · exact solid letter inStem

/-- The levels behind a key are those of the line. -/
theorem value_levels (levels : List PriceLevel) :
    (words isPySpace (strip ((levels.map levelText).flatMap (' ' :: ·)))).mapM parseToken =
      some levels := by
  have kept : words isPySpace (strip ((levels.map levelText).flatMap (' ' :: ·))) =
      words isPySpace ((levels.map levelText).flatMap (' ' :: ·)) := words_trimmed isPySpace _
  rw [kept, level_words]
  exact parse_level_texts levels

theorem starts_top_key (n : Nat) (stem : Text) :
    startswith "top_".toList ("top_".toList ++ Nat.toDigits 10 n ++ stem) = true := by
  rw [startswith, List.isPrefixOf_iff_prefix, List.append_assoc]
  exact List.prefix_append _ _

theorem ends_top_key (n : Nat) (stem : Text) :
    stem.isSuffixOf ("top_".toList ++ Nat.toDigits 10 n ++ stem) = true := by
  rw [List.isSuffixOf_iff_suffix]
  exact List.suffix_append _ _

/-- A key of asks does not end like one of bids. -/
theorem asks_key_no_bids (n : Nat) :
    "_bids".toList.isSuffixOf ("top_".toList ++ Nat.toDigits 10 n ++ "_asks".toList) = false := by
  rw [Bool.eq_false_iff, ne_eq, List.isSuffixOf_iff_suffix]
  intro ends
  have asks := List.suffix_append ("top_".toList ++ Nat.toDigits 10 n) "_asks".toList
  have inside := List.suffix_of_suffix_length_le ends asks (by decide)
  have same := inside.eq_of_length (by decide)
  revert same
  decide

theorem occurs_top_colon (n : Nat) (stem : Text) (levels : List PriceLevel) :
    occursIn ":".toList (topLine n (stem ++ [':']) levels) = true := by
  have shape : topLine n (stem ++ [':']) levels =
      ("top_".toList ++ Nat.toDigits 10 n ++ stem) ++
        ':' :: (levels.map levelText).flatMap (' ' :: ·) := by
    simp only [top_line_eq, List.append_assoc, List.singleton_append]
  rw [shape]
  exact occurs_colon _ _

theorem read_report_bids (reading : ReplayReading) (n : Nat) (levels : List PriceLevel) :
    readReportLine reading (topLine n "_bids:".toList levels) =
      some { reading with bids := levels } := by
  have colon := occurs_top_colon n "_bids".toList levels
  have parts := top_line_parts n "_bids".toList (by decide) levels
  have key := strip_top_key n "_bids".toList (solid_of_all (by decide))
  change readReportLine reading (topLine n ("_bids".toList ++ [':']) levels) = _
  simp only [readReportLine, colon, parts, key, starts_top_key, ends_top_key, value_levels,
    Bool.not_true, Bool.false_eq_true, if_false, Bool.and_self, if_true, Option.map_some]

theorem read_report_asks (reading : ReplayReading) (n : Nat) (levels : List PriceLevel) :
    readReportLine reading (topLine n "_asks:".toList levels) =
      some { reading with asks := levels } := by
  have colon := occurs_top_colon n "_asks".toList levels
  have parts := top_line_parts n "_asks".toList (by decide) levels
  have key := strip_top_key n "_asks".toList (solid_of_all (by decide))
  change readReportLine reading (topLine n ("_asks".toList ++ [':']) levels) = _
  simp only [readReportLine, colon, parts, key, starts_top_key, ends_top_key, asks_key_no_bids,
    value_levels, Bool.not_true, Bool.and_false, Bool.false_eq_true, if_false, Bool.and_self,
    if_true, Option.map_some]

end Lines

section Report

theorem read_report_stream (summary : ReplaySummary) (book : OrderBook) :
    readReport (streamOutput summary book) = some (reported summary book) := by
  have stores : ∀ field ∈ streamFields summary, ∀ reading,
      readReportLine reading (fieldLine field) =
        some { reading with summary := reading.summary.insert field.1 field.2 } := by
    intro field listed reading
    exact read_report_field reading field (stream_labels summary field listed)
      (stream_figures summary field listed)
  have fields := read_field_lines readReportLine readReportLines (fun _ _ _ => rfl) _ stores {}
    (topLines book 10)
  rw [readReport, stream_lines_found, streamLines, List.cons_append, readReportLines,
    read_report_title, Option.bind_some, fields, topLines, readReportLines, read_report_bids,
    Option.bind_some, readReportLines, read_report_asks]
  rfl

theorem reported_field_iff (summary : ReplaySummary) (book : OrderBook) (label value : Text) :
    (reported summary book).summary[label]? = some value ↔ (label, value) ∈ streamFields summary := by
  have stored := lookup_insert_many (∅ : ExtTreeMap Text Text compare) _
    (stream_labels_distinct summary) label value
  rw [ExtTreeMap.getElem?_empty] at stored
  simp only [reduceCtorEq, false_and, or_false] at stored
  exact stored

/-- Whatever a replay prints, both scripts get back the ten best levels of either side
and the printed fields, each under its label and nothing else. -/
theorem scripts_read_report (summary : ReplaySummary) (book : OrderBook) :
    ∃ reading, replay (streamOutput summary book) = some reading ∧
      readReport (streamOutput summary book) = some reading ∧
      reading.bids = topN book .buy 10 ∧ reading.asks = topN book .sell 10 ∧
      ∀ label value, reading.summary[label]? = some value ↔
        (label, value) ∈ streamFields summary :=
  ⟨reported summary book, replay_reads_stream summary book, read_report_stream summary book, rfl,
    rfl, reported_field_iff summary book⟩

end Report

end TickForge.ReportReading
