import TickForge.DayValidation
import TickForge.LobsterAgreement

/-!
# The comparison with the published snapshot

The comparison replays a feed strictly and succeeds exactly where the best levels of
the book are the published ones. A session that starts from an empty book passes it,
whatever it does to orders the adapter does not know.
-/

namespace TickForge.SnapshotComparison

open Std (ExtTreeMap)
open KeyedTotals StepRuns MarketEventModel OrderBookModel DepthLedger OrphanRemoval StrictReference
open CsvParserModel CsvRoundTrip LatencyProfilerModel Int64DepthModel Int64Depth BookViews
open LobsterAdapterModel LobsterSnapshot LobsterAgreement SeedCheck ReplayEngineModel
open ReplayReportModel ReplayReport ReplayMainModel ReplayMain
open ReplayScriptsModel ReportReading ScriptFiles DayValidation

set_option autoImplicit false

section Verdict

theorem diff_eq_zero_iff (tf lob : List PriceLevel) (levels : Nat) :
    diff tf lob levels = 0 ↔ tf.take levels = lob.take levels := by
  refine ⟨?_, diff_eq_zero tf lob levels⟩
  intro none
  rw [diff, List.countP_eq_zero] at none
  apply List.ext_getElem?
  intro rank
  by_cases inside : rank < levels
  · have agrees := none rank (List.mem_range.mpr inside)
    rw [decide_eq_true_iff, not_not] at agrees
    rw [List.getElem?_take_of_lt inside, List.getElem?_take_of_lt inside, agrees]
  · have outside := not_lt.mp inside
    rw [List.getElem?_eq_none ((List.length_take_le _ _).trans outside),
      List.getElem?_eq_none ((List.length_take_le _ _).trans outside)]

/-- The levels of a side as the comparison reads them off a row. -/
def publishedLevels (levels : Nat) (fields : List Int) (side : Side) : List PriceLevel :=
  levelsOf (lastRowSides levels fields).1 (lastRowSides levels fields).2 side

/-- The state of the strict fold. -/
def strictFold (events : List MarketEvent) (samples : List Nat) : ReplayState :=
  foldState {} events samples

def verdictOf (arithmetic : FloatArithmetic) (events : List MarketEvent) (samples : List Nat)
    (elapsedNs levels : Nat) (fields : List Int) : Check :=
  checkLevels (reported (summarize arithmetic (strictFold events samples) elapsedNs)
    (strictFold events samples).book) (lastRowSides levels fields) levels

theorem verdict_passes_iff (arithmetic : FloatArithmetic) (events : List MarketEvent)
    (samples : List Nat) (elapsedNs levels : Nat) (fields : List Int) :
    (verdictOf arithmetic events samples elapsedNs levels fields).passes = true ↔ ∀ side,
      ((ladder (finalState applyEvent {} events) side).take 10).take levels =
        (publishedLevels levels fields side).take levels := by
  have shown : ∀ side, topN (strictFold events samples).book side 10 =
      (ladder (finalState applyEvent {} events) side).take 10 := fun side => top_n_eq _ side 10
  simp only [Check.passes, verdictOf, checkLevels, reported, Bool.and_eq_true, decide_eq_true_iff,
    diff_eq_zero_iff, shown]
  constructor
  · rintro ⟨bids, asks⟩ side
    cases side with
    | buy => exact bids
    | sell => exact asks
  · intro same
    exact ⟨same .buy, same .sell⟩

variable {env : Environment} {run : Environment → List Text → ProcessResult}
  {eventsPath orderbookPath : Text} {lineEnd bookEnd : LineEnd} {events : List MarketEvent}
  {rows : List (List Int)} {fields : List Int} {levels : Nat}

theorem max_switch (env : Environment) :
    Configures env ["--mode".toList, "max".toList] {} := by
  refine ⟨[.mode .max], ?_, rfl, rfl⟩
  simp [Switch.Accepted]

/-- What the comparison does with a written feed and a written orderbook file. -/
theorem compare_written_feed (runs : ∀ env args, MainYields env args (run env args))
    (writable : ∀ event ∈ events, Writable event) (defined : DepthDefined {} events)
    (feed : env.openFile eventsPath = some (writeFeed lineEnd events))
    (book : env.openFile orderbookPath = some (orderbookText bookEnd rows))
    (isLast : rows.getLast? = some fields) (nonempty : fields ≠ [])
    (enough : 4 * levels ≤ fields.length) :
    ∃ samples elapsedNs, compareSnapshot env run eventsPath orderbookPath levels =
      let verdict := verdictOf env.arithmetic events samples elapsedNs levels fields
      .ok (if verdict.passes then 0 else 1, verdict) := by
  have replayable : Replayable env eventsPath {} events :=
    { multiplier := ⟨1, rfl, by decide⟩
      file := written_file_reads writable feed
      defined := max_mode_defined rfl defined
      report := by
        intro report asked
        cases asked }
  rcases main_yields_replayed (runs env _) (max_switch env) replayable with
    ⟨samples, elapsedNs, _, ran⟩
  refine ⟨samples, elapsedNs, ?_⟩
  have printed : (replayedResult env {} events samples elapsedNs).stdout =
      streamOutput (summarize env.arithmetic (strictFold events samples) elapsedNs)
        (strictFold events samples).book := List.append_nil _
  have endedWell : ¬(replayedResult env {} events samples elapsedNs).exitCode ≠ 0 :=
    not_not_intro rfl
  have opened : openText env orderbookPath = .ok (orderbookText bookEnd rows) := by
    simp only [openText, book]
  have lastRow := read_last_row bookEnd orderbookPath rows levels fields isLast nonempty enough
  have read : runTickforge (run env [eventsPath, "--mode".toList, "max".toList]) =
      .ok (reported (summarize env.arithmetic (strictFold events samples) elapsedNs)
        (strictFold events samples).book) := by
    rw [ran, runTickforge, if_neg endedWell, printed, read_report_stream]
  simp only [compareSnapshot, opened, lastRow, read, bind, Except.bind, pure, Except.pure, verdictOf]
  rfl

/-- Two files for the comparison: a feed and an orderbook file with one row. -/
def comparedFiles (feed : Text) (fields : List Int) : Environment :=
  { oneOrderFile with openFile := fun path =>
      if path = "events.csv".toList then some feed
      else if path = "orderbook.csv".toList then some (orderbookText .lf [fields]) else none }

theorem compared_orderbook (feed : Text) (fields : List Int) :
    (comparedFiles feed fields).openFile "orderbook.csv".toList =
      some (orderbookText .lf [fields]) := by
  have notEvents : "orderbook.csv".toList ≠ "events.csv".toList := by decide
  simp only [comparedFiles, if_neg notEvents, if_true]

end Verdict

section Session

/-- What is left of the adapter's active orders on one side. -/
def activeSideDepth (active : ActiveTable) (side : Side) : Int :=
  total (fun _ order => if order.side = side then order.size else 0) active

theorem tracked_side_depth (active : ActiveTable) (side : Side) :
    referenceSideDepth (trackedTable active) side = activeSideDepth active side :=
  total_map _ _ _

/-- Levels without orders are filled up with the sentinel price. -/
def SentinelFilled (fields : List Int) : Prop :=
  ∀ level ∈ bidColumns fields ++ askColumns fields, level.2 = 0 → level.1.natAbs = lobsterSentinel

def isPriced (level : PriceLevel) : Bool := level.1.natAbs ≠ lobsterSentinel

theorem is_priced_iff (level : PriceLevel) :
    isPriced level = true ↔ level.1.natAbs ≠ 9999999999 := decide_eq_true_iff

theorem last_row_sides_eq (levels : Nat) (fields : List Int) (enough : 4 * levels ≤ fields.length) :
    lastRowSides levels fields =
      (((bidColumns fields).take levels).filter isPriced,
        ((askColumns fields).take levels).filter isPriced) := by
  induction levels generalizing fields with
  | zero => simp [lastRowSides]
  | succ levels ih =>
      match fields with
      | askPrice :: askSize :: bidPrice :: bidSize :: rest =>
          have later := ih rest (by simp only [List.length_cons] at enough; omega)
          rw [lastRowSides, later, bidColumns, askColumns, List.take_succ_cons, List.take_succ_cons,
            List.filter_cons, List.filter_cons]
          simp only [isPriced, decide_eq_true_eq]
      | [] | [_] | [_, _] | [_, _, _] =>
          simp only [List.length_cons, List.length_nil] at enough
          omega

variable {side : Side} {columns occupied : List PriceLevel}

theorem priced_of_first (snapshot : SnapshotSide side columns occupied)
    (filled : ∀ level ∈ columns, level.2 = 0 → level.1.natAbs = lobsterSentinel) (n : Nat) :
    (columns.take n).filter isPriced = occupied.take n := by
  rcases snapshot.split with ⟨filler, rfl, hidden⟩
  have kept : (occupied.take n).filter isPriced = occupied.take n := by
    apply List.filter_eq_self.mpr
    intro level listed
    have sound := (snapshot.sound level (List.mem_of_mem_take listed)).1
    simp only [Unoccupied, not_or] at sound
    rw [is_priced_iff]
    omega
  have dropped : (filler.take (n - occupied.length)).filter isPriced = [] := by
    apply List.filter_eq_nil_iff.mpr
    intro level listed
    have member := List.mem_of_mem_take listed
    have noSize := filled level (List.mem_append_right occupied member)
    have isHidden := hidden level member
    simp only [Unoccupied] at isHidden
    simp only [lobsterSentinel] at noSize
    rw [is_priced_iff]
    omega
  rw [List.take_append, List.filter_append, kept, dropped, List.append_nil]

/-- A session behind an empty book: no order of it is known before it is entered, every
message fits what the adapter holds, and what is active stays in range, at each level and
in the end on each side. -/
structure Session (args : AdapterArgs) (messages : List Message) : Prop where
  fits : MessagesFit args messages
  inRange : ∀ message ∈ messages, MessageInRange args message
  levels : NewOrdersFit args messages
  totals : ∀ side, activeSideDepth (writeMessages args {} messages).active side < 2 ^ 63

variable {args : AdapterArgs} {messages : List Message}

theorem session_mirrored (defaultScale : args.priceScale = 10000) (session : Session args messages) :
    Mirrored (writeMessages args {} messages) (expectedAnswers args {} messages) :=
  prefix_mirrored defaultScale session.fits List.prefix_rfl

/-- The replay of a session computes no depth that is out of range. -/
theorem session_depth_defined (defaultScale : args.priceScale = 10000)
    (session : Session args messages) :
    DepthDefined {} (rowEvents (writeMessages args {} messages).rows) := by
  have refines := (session_mirrored defaultScale session).refines
  rw [depth_defined_iff ⟨_, empty_ledgered {}⟩ (empty_small_levels {})]
  constructor
  · exact rows_levels_fit defaultScale session.fits session.levels messages List.prefix_rfl
  · intro side
    rw [refined_total_depth refines, tracked_side_depth]
    exact session.totals side

theorem session_rows (defaultScale : args.priceScale = 10000) (session : Session args messages) :
    ∀ row ∈ (writeMessages args {} messages).rows, SessionRow row := by
  have noSizes : SizesInRange ({} : AdapterState).active := by
    intro orderId order stored
    cases stored
  rcases write_messages_rows defaultScale messages session.inRange {} noSizes with
    ⟨below, rows, sound⟩
  rw [rows]
  exact sound

/-- The adapter's file of a session, and the book a strict replay of it ends with. -/
theorem adapter_writes_session (defaultScale : args.priceScale = 10000)
    (session : Session args messages) (env : Environment) :
    ∃ events, runAdapter args env none (messages.map .message) = .ok (writeFeed .crlf events) ∧
      (∀ event ∈ events, Writable event) ∧ DepthDefined {} events ∧
      outputs applyEvent {} events = expectedAnswers args {} messages ∧
      ∀ side price, depthAtPrice (finalState applyEvent {} events) side price =
        activeDepth (writeMessages args {} messages).active side price := by
  have sound := session_rows defaultScale session
  have mirrored := session_mirrored defaultScale session
  have stamped : ∀ row ∈ (writeMessages args {} messages).rows, 0 ≤ row.timestampNs :=
    fun row listed => (sound row listed).stamped.le
  refine ⟨rowEvents (writeMessages args {} messages).rows, ?_, ?_,
    session_depth_defined defaultScale session, mirrored.answered, mirrored_depth mirrored⟩
  · simp only [runAdapter, initialBookFile, bind, Except.bind, convert_messages, pure, Except.pure,
      adapter_file_feed _ stamped]
  · intro event listed
    rcases List.mem_map.mp listed with ⟨row, member, rfl⟩
    exact (sound row member).writable

/-- A session that starts from an empty book passes the comparison with the row that
shows the orders left active, and the replay reports as rejected just the messages about
orders that were not. -/
theorem session_from_empty_book_compares (defaultScale : args.priceScale = 10000)
    (session : Session args messages) (env : Environment)
    (run : Environment → List Text → ProcessResult)
    (runs : ∀ env args, MainYields env args (run env args)) (eventsPath orderbookPath : Text)
    (kept : orderbookPath ≠ eventsPath) (bookEnd : LineEnd) (rows : List (List Int))
    (stored : env.openFile orderbookPath = some (orderbookText bookEnd rows)) (fields : List Int)
    (isLast : rows.getLast? = some fields) (bids asks : List PriceLevel)
    (publishes : Publishes fields (activeDepth (writeMessages args {} messages).active) bids asks)
    (filled : SentinelFilled fields) (levels : Nat) (upToTen : levels ≤ 10)
    (enough : 4 * levels ≤ fields.length) :
    ∃ text check, runAdapter args env none (messages.map .message) = .ok text ∧
      compareSnapshot (withFile env eventsPath text) run eventsPath orderbookPath levels =
        .ok (0, check) ∧
      check.summary["rejected_events".toList]? =
        some (Nat.toDigits 10 ((expectedAnswers args {} messages).count false)) := by
  rcases adapter_writes_session defaultScale session env with
    ⟨events, adapted, writable, defined, answered, depth⟩
  have feedStored : (withFile env eventsPath (writeFeed .crlf events)).openFile eventsPath =
      some (writeFeed .crlf events) := if_pos rfl
  have bookStored : (withFile env eventsPath (writeFeed .crlf events)).openFile orderbookPath =
      some (orderbookText bookEnd rows) := (if_neg kept).trans stored
  rcases compare_written_feed runs writable defined feedStored bookStored isLast
    publishes.nonempty enough with ⟨samples, elapsedNs, compared⟩
  rw [with_file_arithmetic] at compared
  have ladders : ∀ side, ladder (finalState applyEvent {} events) side = levelsOf bids asks side := by
    rcases run_ledgered ⟨_, empty_ledgered {}⟩ events with ⟨drained, ledgered⟩
    exact published_ladder publishes ledgered.tidy depth
  have published : ∀ side, publishedLevels levels fields side =
      (levelsOf bids asks side).take levels := by
    intro side
    have sides := last_row_sides_eq levels fields enough
    cases side with
    | buy =>
        rw [publishedLevels, sides]
        exact priced_of_first publishes.bidSide
          (fun level listed => filled level (List.mem_append_left _ listed)) levels
    | sell =>
        rw [publishedLevels, sides]
        exact priced_of_first publishes.askSide
          (fun level listed => filled level (List.mem_append_right _ listed)) levels
  have passes : (verdictOf env.arithmetic events samples elapsedNs levels fields).passes =
      true := by
    rw [verdict_passes_iff]
    intro side
    rw [ladders, published, List.take_take, List.take_take, Nat.min_eq_left upToTen, Nat.min_self]
  refine ⟨_, verdictOf env.arithmetic events samples elapsedNs levels fields, adapted, ?_, ?_⟩
  · rw [compared]
    simp only [passes, if_true]
  · have rejected : (summarize env.arithmetic (strictFold events samples) elapsedNs).rejectedEvents =
        (expectedAnswers args {} messages).count false := by
      rw [← answered]
      rfl
    have printed : ("rejected_events".toList,
          Nat.toDigits 10 ((expectedAnswers args {} messages).count false)) ∈
        streamFields (summarize env.arithmetic (strictFold events samples) elapsedNs) := by
      rw [streamFields, rejected]
      exact List.mem_cons_of_mem _ List.mem_cons_self
    exact (reported_field_iff _ (strictFold events samples).book _ _).mpr printed

/-- A bid is entered, and an order nobody entered is reduced. -/
def shortSession : List Message :=
  [{ timeNs := 1, type := 1, orderId := 7, size := 20, price := 10000, direction := 1 },
    { timeNs := 2, type := 2, orderId := 9, size := 5, price := 10000, direction := 1 }]

theorem short_session_active : (writeMessages {} {} shortSession).active =
    (∅ : ActiveTable).insert 7 ⟨7, .buy, 10000, 20⟩ := by
  rfl

theorem short_session_depth (side : Side) (price : Int) :
    activeDepth (writeMessages {} {} shortSession).active side price =
      if Side.buy = side ∧ (10000 : Int) = price then 20 else 0 := by
  rw [short_session_active]
  have entered := total_put
    (fun (_ : Nat) (order : ActiveOrder) =>
      if order.side = side ∧ order.price = price then order.size else 0)
    (∅ : ActiveTable) 7 (some ⟨7, .buy, 10000, 20⟩)
  refine Eq.trans entered ?_
  by_cases here : Side.buy = side ∧ (10000 : Int) = price
  · rcases here with ⟨rfl, rfl⟩
    simp
  · simp [here]

theorem short_session : Session {} shortSession where
  fits := by
    intro before message rest reached split converted
    rw [convert_messages] at converted
    cases converted
    simp only [shortSession] at split
    rcases before with _ | ⟨first, _ | ⟨second, before⟩⟩
    · cases split
      exact ⟨by decide, by decide⟩
    · cases split
      exact ⟨by decide, by decide⟩
    · have count := congrArg List.length split
      simp at count
  inRange := by
    intro message listed
    rcases List.mem_pair.mp listed with rfl | rfl
    · exact ⟨by decide, by decide, fun _ => by decide⟩
    · exact ⟨by decide, by decide, fun _ => by decide⟩
  levels := by
    intro before message rest reached split converted isNew
    rw [convert_messages] at converted
    cases converted
    simp only [shortSession] at split
    rcases before with _ | ⟨first, _ | ⟨second, before⟩⟩
    · cases split
      decide
    · cases split
      exact absurd isNew (by decide)
    · have count := congrArg List.length split
      simp at count
  totals := by
    rw [short_session_active]
    intro side
    cases side <;> decide

theorem short_session_compares :
    let fields : List Int := [9999999999, 0, 10000, 20]
    let env := comparedFiles [] fields
    ∃ run : Environment → List Text → ProcessResult,
      (∀ env args, MainYields env args (run env args)) ∧
      ∃ text check,
        runAdapter {} env none (shortSession.map .message) = .ok text ∧
        compareSnapshot (withFile env "events.csv".toList text) run "events.csv".toList
          "orderbook.csv".toList 1 = .ok (0, check) ∧
        check.summary["rejected_events".toList]? = some "1".toList := by
  intro fields env
  choose run runs using main_returns
  refine ⟨run, runs, ?_⟩
  have stored := compared_orderbook [] fields
  have filled : SentinelFilled fields := by
    intro level listed
    revert level
    decide
  exact session_from_empty_book_compares rfl short_session env run runs "events.csv".toList
    "orderbook.csv".toList (by decide) .lf [fields] stored fields rfl [(10000, 20)] []
    (one_bid_published _ 20 (by decide) short_session_depth) filled 1 (by decide) (by decide)

end Session

end TickForge.SnapshotComparison
