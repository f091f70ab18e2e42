import TickForge.LatencyStatistics
import TickForge.ReplayMain
import TickForge.ScriptFiles

/-!
# The latency report and its reader

`plot_latency.py` reads the report of a replay with `csv.DictReader`. What it gets
back are the samples behind the printed statistics, one for each event.
-/

namespace TickForge.LatencyReport

open DelimitedText CsvReader MarketEventModel CsvParserModel CsvRoundTrip LatencyProfilerModel
open LatencyStatistics
open ReplayEngineModel ReplayReportModel ReplayReport ReplayMainModel ReplayMain
open ReplayScriptsModel ScriptFiles

set_option autoImplicit false

section Loader

/-- The lines of a file opened with `newline=""`, each with the end it has. -/
def rawLines (line : Text) : Text → List Text
  | [] => if line = [] then [] else [line]
  | '\r' :: '\n' :: rest => (line ++ ['\r', '\n']) :: rawLines [] rest
  | letter :: rest =>
      if isLineEnd letter then (line ++ [letter]) :: rawLines [] rest
      else rawLines (line ++ [letter]) rest

/-- A value of a `csv.DictReader` row: of columns with one name the last one counts,
and a column the row does not reach is `None`. -/
def columnValue (names row : List Text) (name : Text) : Option Text :=
  ((names.zip (row.map some ++ List.replicate names.length none)).reverse.lookup name).join

/-- The rows below the header; `failed` says that an error of the reader stands
behind them. -/
def latencyRows (names : List Text) (failed : Bool) :
    List (List Text) → Except ScriptError (List Int)
  | [] => if failed then .error .csvError else .ok []
  | row :: rest =>
      match columnValue names row "latency_ns".toList with
      | none | some [] => latencyRows names failed rest
      | some value =>
          match readInt value with
          | none => .error .valueError
          | some latency =>
              match latencyRows names failed rest with
              | .error failure => .error failure
              | .ok latencies => .ok (latency :: latencies)

/-- `load_latencies_stdlib`. -/
def loadLatencies (env : Environment) (path : Text) : Except ScriptError (List Int) := do
  let text ← openText env path
  let rows := readRows {} (rawLines [] text)
  let names := rows.1.headD []
  if rows.1 = [] ∧ rows.2 = true then .error .csvError
  else if "latency_ns".toList ∉ names then
    .error (.systemExit "input CSV must contain a latency_ns column".toList)
  else latencyRows names rows.2 rows.1.tail

end Loader

section Report

theorem raw_lines_line (before line rest : Text) (whole : OneLine line) :
    rawLines before (line ++ '\n' :: rest) = (before ++ line ++ ['\n']) :: rawLines [] rest := by
  induction line generalizing before with
  | nil =>
      rw [List.nil_append, rawLines.eq_3 before '\n' rest (by simp), if_pos (by decide),
        List.append_nil]
  | cons letter later ih =>
      unfold OneLine at whole
      rw [List.forall_mem_cons] at whole
      have notReturn : letter ≠ '\r' := by
        rintro rfl
        have ends := whole.1
        revert ends
        decide
      rw [List.cons_append, rawLines.eq_3 before letter _ (fun _ same _ => notReturn same),
        if_neg (by rw [whole.1]; exact Bool.false_ne_true), ih _ whole.2, List.append_assoc before,
        List.singleton_append]

theorem raw_lines_terminated (lines : List Text) (whole : ∀ line ∈ lines, OneLine line) :
    rawLines [] (lines.flatMap (· ++ ['\n'])) = lines.map (· ++ ['\n']) := by
  induction lines with
  | nil => rfl
  | cons line rest ih =>
      rw [List.forall_mem_cons] at whole
      rw [List.flatMap_cons, List.append_assoc, List.singleton_append,
        raw_lines_line [] line _ whole.1, ih whole.2, List.nil_append, List.map_cons]

/-- The rows of a report, header first. -/
def reportRows (samples : List Nat) : List (List Text) :=
  ["event_index".toList, "latency_ns".toList] ::
    samples.zipIdx.map fun sample => [Nat.toDigits 10 sample.2, Nat.toDigits 10 sample.1]

theorem joined_pair (first second : Text) : joined [first, second] = first ++ ',' :: second := by
  rw [joined, List.intercalate_cons_cons, List.intercalate_singleton, List.append_assoc,
    List.singleton_append]

theorem report_lines_rows (samples : List Nat) :
    reportLines { samples := samples } = (reportRows samples).map joined := by
  have header : joined ["event_index".toList, "latency_ns".toList] =
      "event_index,latency_ns".toList := joined_pair _ _
  rw [reportLines, reportRows, List.map_cons, List.map_map, header]
  apply congrArg (List.cons _)
  apply List.map_congr_left
  intro sample _
  exact (joined_pair _ _).symm

theorem digits_unquoted (value : Nat) : Unquoted (Nat.toDigits 10 value) :=
  plain_unquoted (to_digits_plain value) Nat.toDigits_ne_nil

theorem report_rows_unquoted (samples : List Nat) :
    ∀ fields ∈ reportRows samples, fields ≠ [] ∧ ∀ field ∈ fields, Unquoted field := by
  have index : Unquoted "event_index".toList :=
    plain_unquoted (plain_of_all _ (by decide)) (by decide)
  have latency : Unquoted "latency_ns".toList :=
    plain_unquoted (plain_of_all _ (by decide)) (by decide)
  rw [reportRows, List.forall_mem_cons]
  constructor
  · refine ⟨List.cons_ne_nil _ _, ?_⟩
    intro field listed
    rcases List.mem_pair.mp listed with rfl | rfl
    · exact index
    · exact latency
  · intro fields listed
    rcases List.mem_map.mp listed with ⟨sample, _, rfl⟩
    refine ⟨List.cons_ne_nil _ _, ?_⟩
    intro field inside
    rcases List.mem_pair.mp inside with rfl | rfl
    · exact digits_unquoted sample.2
    · exact digits_unquoted sample.1

theorem report_read_rows (samples : List Nat) :
    readRows {} (rawLines [] (writeCsv { samples := samples })) = (reportRows samples, false) := by
  have whole : ∀ line ∈ (reportRows samples).map joined, OneLine line := by
    intro line listed
    rcases List.mem_map.mp listed with ⟨fields, member, rfl⟩
    apply joined_one_line
    intro field inside letter letterInside
    exact (((report_rows_unquoted samples fields member).2 field inside).2 letter letterInside).2.2
  rw [writeCsv, printLines, report_lines_rows, raw_lines_terminated _ whole, List.map_map]
  exact read_unquoted_rows (reportRows samples)
    (fun fields listed => (report_rows_unquoted samples fields listed).1)
    fun fields listed => (report_rows_unquoted samples fields listed).2

theorem latency_rows_found (samples : List Nat) (start : Nat) :
    latencyRows ["event_index".toList, "latency_ns".toList] false
        ((samples.zipIdx start).map fun sample =>
          [Nat.toDigits 10 sample.2, Nat.toDigits 10 sample.1]) =
      .ok (samples.map Int.ofNat) := by
  induction samples generalizing start with
  | nil => rfl
  | cons sample rest ih =>
      have column : columnValue ["event_index".toList, "latency_ns".toList]
          [Nat.toDigits 10 start, Nat.toDigits 10 sample] "latency_ns".toList =
            some (Nat.toDigits 10 sample) := rfl
      have value : readInt (Nat.toDigits 10 sample) = some (Int.ofNat sample) :=
        read_int_py_int (Int.ofNat sample)
      rw [List.zipIdx_cons, List.map_cons, latencyRows, column]
      cases digits : Nat.toDigits 10 sample with
      | nil => exact absurd digits Nat.toDigits_ne_nil
      | cons digit later =>
          rw [digits] at value
          simp only [value, ih, List.map_cons]

/-- A stored report is read back sample by sample. -/
theorem report_reads_back {env : Environment} {path : Text} (samples : List Nat)
    (stored : env.openFile path = some (writeCsv { samples := samples })) :
    loadLatencies env path = .ok (samples.map Int.ofNat) := by
  have opened : openText env path = .ok (writeCsv { samples := samples }) := by
    simp only [openText, stored]
  have named : ¬"latency_ns".toList ∉ ["event_index".toList, "latency_ns".toList] := by decide
  have nonempty : ¬(reportRows samples = [] ∧ false = true) := fun failed =>
    Bool.false_ne_true failed.2
  simp only [loadLatencies, opened, bind, Except.bind, report_read_rows, if_neg nonempty]
  rw [reportRows, List.headD_cons, List.tail_cons, if_neg named]
  exact latency_rows_found samples 0

/-- A percentile is a recorded sample as a double, however its rank is rounded. -/
theorem percentile_shows_sample (longDigits : Nat) {samples : List Nat} (nonempty : samples ≠ [])
    (q : Rat) :
    ∃ sample ∈ samples,
      percentile (machineArithmetic longDigits) samples.mergeSort q = asDouble sample := by
  have inside := percentile_index_lt (machineArithmetic longDigits) (merge_sort_pos nonempty)
    ((machineArithmetic longDigits).doubleResult q)
  refine ⟨_, List.mem_mergeSort.mp (List.getElem_mem inside), ?_⟩
  rw [percentile, List.getD_eq_getElem _ _ inside]
  rfl

/-- The printed extremes are recorded samples, the printed percentiles doubles nearest to
some. -/
structure PrintedSamples (samples : List Nat) (printed : LatencyStats) : Prop where
  least : IsLeast {sample | sample ∈ samples} printed.minNs
  greatest : IsGreatest {sample | sample ∈ samples} printed.maxNs
  median : ∃ sample ∈ samples, printed.p50Ns = asDouble sample
  ninetyFifth : ∃ sample ∈ samples, printed.p95Ns = asDouble sample
  ninetyNinth : ∃ sample ∈ samples, printed.p99Ns = asDouble sample

theorem stats_print_samples (longDigits : Nat) {samples : List Nat} (nonempty : samples ≠ [])
    (elapsedNs : Nat) :
    PrintedSamples samples
      (stats (machineArithmetic longDigits) { samples := samples } elapsedNs) := by
  unfold stats
  rw [if_neg nonempty]
  constructor
  · exact head_is_least nonempty
  · exact last_is_greatest nonempty
  · exact percentile_shows_sample longDigits nonempty _
  · exact percentile_shows_sample longDigits nonempty _
  · exact percentile_shows_sample longDigits nonempty _

/-- The environment of one order, with a report that can be written. -/
def reportingFile : Environment := { oneOrderFile with openReport := fun _ => .ok () }

theorem reporting_configures :
    Configures reportingFile ["--report".toList, "latency.csv".toList]
      { reportPath := some "latency.csv".toList } :=
  ⟨[.report "latency.csv".toList], by simp [Switch.Accepted], rfl, rfl⟩

theorem reporting_replayable :
    Replayable reportingFile "feed.csv".toList { reportPath := some "latency.csv".toList }
      [enteredOrder] where
  multiplier := ⟨1, rfl, by decide⟩
  file := one_order_file_reads
  defined := max_mode_defined rfl (by decide)
  report := fun _ _ => rfl

end Report

end TickForge.LatencyReport
