import TickForge.LobsterAgreement
import TickForge.ReplayMain
import TickForge.ReportReading
import TickForge.ScriptFiles
import TickForge.SeedCheck

/-!
# A full-depth day passes its validation

The adapter's file is counted, cut, replayed by the program under any interleaving,
printed, read back and compared. Where the orderbook file shows the exchange's book
before and behind the messages, and its depths stay in range, both checks of the validator
find no difference.
-/

namespace TickForge.DayValidation

open Std (ExtTreeMap)
open KeyedTotals StepRuns DelimitedText MarketEventModel OrderBookModel OrderBookStep DepthLedger
open OrphanRemoval LatencyProfilerModel Int64DepthModel Int64Depth
open CsvParserModel CsvGrammar CsvRoundTrip LobsterAdapterModel LobsterExchange LobsterSnapshot
open LobsterReconstruction LobsterAgreement LobsterRescaling BookViews SeedCheck ReplayEngineModel
open ReplayAgreement ReplayReportModel ReplayReport ReplayMainModel ReplayMain
open ReplayScriptsModel ReportReading ScriptFiles

set_option autoImplicit false

section Replays

variable {env : Environment} {path : Text} {lineEnd : LineEnd} {events : List MarketEvent}

theorem written_file_reads (writable : ∀ event ∈ events, Writable event)
    (stored : env.openFile path = some (writeFeed lineEnd events)) :
    FileReads env path events := by
  have reads := parse_stream_reads (writeFeed lineEnd events) path
  rw [parse_write_feed lineEnd events writable] at reads
  exact ⟨_, stored, reads⟩

theorem orphan_switches (env : Environment) :
    Configures env ["--mode".toList, "max".toList, "--allow-orphan-events".toList]
      { acceptUnknownOrderOps := true } := by
  refine ⟨[.mode .max, .allowOrphanEvents], ?_, rfl, rfl⟩
  simp [Switch.Accepted]

/-- The state of the fold that accepts orphans. -/
def orphanFold (events : List MarketEvent) (samples : List Nat) : ReplayState :=
  foldState { acceptUnknownOrderOps := true } events samples

/-- The scripts' call of the replay program reports the fold of a written feed. -/
theorem read_replay_of_feed (writable : ∀ event ∈ events, Writable event)
    (defined : DepthDefined orphanBook events)
    (stored : env.openFile path = some (writeFeed lineEnd events)) {ran : ProcessResult}
    (yields : MainYields env (replayArgs path) ran) :
    ∃ samples elapsedNs, samples.length = events.length ∧
      readReplay ran = .ok (reported
        (summarize env.arithmetic (orphanFold events samples) elapsedNs)
        (orphanFold events samples).book) := by
  have replayable : Replayable env path { acceptUnknownOrderOps := true } events :=
    { multiplier := ⟨1, rfl, by decide⟩
      file := written_file_reads writable stored
      defined := max_mode_defined rfl defined
      report := by
        intro report asked
        cases asked }
  rcases main_yields_replayed yields (orphan_switches env) replayable with
    ⟨samples, elapsedNs, counted, rfl⟩
  refine ⟨samples, elapsedNs, counted, ?_⟩
  have printed : (replayedResult env { acceptUnknownOrderOps := true } events samples
      elapsedNs).stdout =
      streamOutput (summarize env.arithmetic (orphanFold events samples) elapsedNs)
        (orphanFold events samples).book := List.append_nil _
  have endedWell : ¬(replayedResult env { acceptUnknownOrderOps := true } events samples
      elapsedNs).exitCode ≠ 0 := not_not_intro rfl
  rw [readReplay, if_neg endedWell, printed, replay_reads_stream]

end Replays

section Names

/-- What is behind the stem starts with a dot. -/
theorem stem_cases (name : Text) : stem name = name ∨ ∃ suffix, name = stem name ++ '.' :: suffix := by
  let suffix := name.rtakeWhile (· ≠ '.')
  let before := name.take (name.length - suffix.length - 1)
  have unfolded : stem name =
      if suffix = [] ∨ before = [] ∨ suffix.length = name.length then name else before := rfl
  have split : name.rdropWhile (· ≠ '.') ++ suffix = name := List.rdropWhile_append_rtakeWhile
  by_cases whole : suffix = [] ∨ before = [] ∨ suffix.length = name.length
  · exact .inl (unfolded.trans (if_pos whole))
  right
  refine ⟨suffix, ?_⟩
  rw [unfolded, if_neg whole]
  have dotted : name.rdropWhile (· ≠ '.') ≠ [] := by
    intro none
    rw [none, List.nil_append] at split
    exact whole (.inr (.inr (congrArg List.length split)))
  have lastDot := List.rdropWhile_last_not _ name dotted
  have isDot : (name.rdropWhile (· ≠ '.')).getLast dotted = '.' := by simpa using lastDot
  have front := List.dropLast_append_getLast dotted
  rw [isDot] at front
  rw [← front, List.append_assoc] at split
  have lengths := congrArg List.length split
  simp only [List.length_append, List.length_singleton] at lengths
  have cut : before = (name.rdropWhile (· ≠ '.')).dropLast := by
    have position : name.length - suffix.length - 1 =
        (name.rdropWhile (· ≠ '.')).dropLast.length := by omega
    change name.take (name.length - suffix.length - 1) = _
    rw [position]
    exact (List.prefix_iff_eq_take.mp ⟨_, split⟩).symm
  rw [cut]
  exact split.symm

/-- The name ends its path. -/
theorem file_name_ends (path : Text) :
    path.take (path.length - (fileName path).length) ++ fileName path = path := by
  have split : path.rdropWhile (· ≠ '/') ++ fileName path = path :=
    List.rdropWhile_append_rtakeWhile
  have lengths := congrArg List.length split
  rw [List.length_append] at lengths
  have front : path.length - (fileName path).length = (path.rdropWhile (· ≠ '/')).length := by
    omega
  have first := List.prefix_iff_eq_take.mp ⟨fileName path, split⟩
  rw [front, ← first, split]

/-- The seeds are cut into a file of their own. -/
theorem seed_only_path_ne (events : Text) : seedOnlyPath events ≠ events := by
  intro same
  have ends := file_name_ends events
  have cut : stem (fileName events) ++ "_seed_only.csv".toList = fileName events := by
    apply List.append_cancel_left
    rw [ends, ← List.append_assoc]
    exact same
  rcases stem_cases (fileName events) with whole | ⟨suffix, behind⟩
  · rw [whole] at cut
    have longer := congrArg List.length cut
    simp at longer
  · have dotted := List.append_cancel_left (cut.trans behind)
    have heads := congrArg List.head? dotted
    rw [List.head?_cons] at heads
    revert heads
    decide

end Names

section Validator

variable {env : Environment} {run : Environment → List Text → ProcessResult}
  {eventsPath orderbookPath : Text} {lineEnd bookEnd : LineEnd} {events : List MarketEvent}
  {rows : List (List Int)} {first last : List Int} {levels : Nat}
  {firstSides lastSides : List PriceLevel × List PriceLevel}

/-- The check the validator makes of a replay of these events. -/
def checkOf (arithmetic : FloatArithmetic) (events : List MarketEvent) (samples : List Nat)
    (elapsedNs : Nat) (sides : List PriceLevel × List PriceLevel) (levels : Nat) : Check :=
  checkLevels (reported (summarize arithmetic (orphanFold events samples) elapsedNs)
    (orphanFold events samples).book) sides levels

/-- On a written feed with seeds the validator makes both checks, the first of them
on the seeds alone. -/
theorem validate_written_feed (runs : ∀ env args, MainYields env args (run env args))
    (writable : ∀ event ∈ events, Writable event)
    (defined : DepthDefined orphanBook events)
    (seedsDefined : DepthDefined orphanBook (leadingSeeds events))
    (stored : env.openFile eventsPath = some (writeFeed lineEnd events))
    (book : env.openFile orderbookPath = some (orderbookText bookEnd rows))
    (apart : orderbookPath ≠ seedOnlyPath eventsPath)
    (seeded : leadingSeeds events ≠ [])
    (isFirst : rows[0]? = some first ∧ first ≠ [] ∧ readLobsterRow levels first = some firstSides)
    (isLast : rows[rows.length - 1]? = some last ∧ last ≠ [] ∧
      readLobsterRow levels last = some lastSides) :
    ∃ seedSamples seedNs samples elapsedNs,
      validate env run eventsPath orderbookPath levels =
        let seedCheck :=
          checkOf env.arithmetic (leadingSeeds events) seedSamples seedNs firstSides levels
        let endCheck := checkOf env.arithmetic events samples elapsedNs lastSides levels
        .ok { exitCode := if seedCheck.passes then 0 else 1
              checks := some (seedCheck, endCheck) } := by
  have leading : leadingSeeds events <+: events := List.takeWhile_prefix _
  have counted := count_feed_seeds lineEnd events
  have cut := slice_feed lineEnd events _ leading.length_le
  rw [← List.prefix_iff_eq_take.mp leading] at cut
  have some_seed : (leadingSeeds events).length ≠ 0 := by
    rwa [ne_eq, List.length_eq_zero_iff]
  let seedEnv := withFile env (seedOnlyPath eventsPath) (writeFeed .lf (leadingSeeds events))
  let endEnv := withoutFile env (seedOnlyPath eventsPath)
  have seedStored : seedEnv.openFile (seedOnlyPath eventsPath) =
      some (writeFeed .lf (leadingSeeds events)) := if_pos rfl
  have endStored : endEnv.openFile eventsPath = some (writeFeed lineEnd events) :=
    (if_neg (seed_only_path_ne eventsPath).symm).trans stored
  have seedBook : openText seedEnv orderbookPath = .ok (orderbookText bookEnd rows) := by
    have opened : seedEnv.openFile orderbookPath = some (orderbookText bookEnd rows) :=
      (if_neg apart).trans book
    simp only [openText, opened]
  have endBook : openText endEnv orderbookPath = .ok (orderbookText bookEnd rows) := by
    have opened : endEnv.openFile orderbookPath = some (orderbookText bookEnd rows) :=
      (if_neg apart).trans book
    simp only [openText, opened]
  have opened : openText env eventsPath = .ok (writeFeed lineEnd events) := by
    simp only [openText, stored]
  have rowCount : (textLines (orderbookText bookEnd rows)).length = rows.length := by
    rw [orderbook_lines, List.length_map]
  rcases read_replay_of_feed (fun event listed => writable event (leading.subset listed))
    seedsDefined seedStored (runs seedEnv (replayArgs (seedOnlyPath eventsPath))) with
    ⟨seedSamples, seedNs, _, seedRead⟩
  rcases read_replay_of_feed writable defined endStored (runs endEnv (replayArgs eventsPath)) with
    ⟨samples, elapsedNs, _, endRead⟩
  refine ⟨seedSamples, seedNs, samples, elapsedNs, ?_⟩
  have seedRow := read_orderbook_row bookEnd rows 0 levels first isFirst.1 isFirst.2.1 firstSides
    isFirst.2.2
  have endRow := read_orderbook_row bookEnd rows (rows.length - 1) levels last isLast.1 isLast.2.1
    lastSides isLast.2.2
  simp only [seedEnv, endEnv] at seedRead seedBook endRead endBook
  simp only [validate, opened, counted, some_seed, cut, seedRead, seedBook, seedRow, endRead,
    endBook, endRow, rowCount, bind, Except.bind, pure, Except.pure, if_false, checkOf]
  rfl

end Validator

section Publication

/-- An orderbook row that shows a whole book: each side lists its levels with their
depth, best first, and nothing else. -/
structure Publishes (fields : List Int) (depth : Side → Int → Int) (bids asks : List PriceLevel) :
    Prop where
  nonempty : fields ≠ []
  wholeLevels : fields.length % 4 = 0
  bidSide : SnapshotSide .buy (bidColumns fields) bids
  askSide : SnapshotSide .sell (askColumns fields) asks
  shown : ∀ side price, listedDepth (levelsOf bids asks side) price = depth side price

/-- A side listed best first lists each of its levels once, with its depth. -/
theorem lists_of_snapshot {side : Side} {columns occupied : List PriceLevel} {depth : Int → Int}
    (snapshot : SnapshotSide side columns occupied)
    (shown : ∀ price, listedDepth occupied price = depth price) : ListsLevels columns depth := by
  rcases snapshot.split with ⟨filler, rfl, hidden⟩
  have once := snapshot_once snapshot
  constructor
  · intro level listed
    rcases List.mem_append.mp listed with isShown | isFiller
    · right
      refine ⟨(snapshot.sound level isShown).2.2, ?_⟩
      rw [← shown, listed_depth_once occupied level isShown once]
    · exact .inl (hidden level isFiller)
  · intro price positive
    by_contra unlisted
    have absent : ∀ level ∈ occupied, level.1 ≠ price := by
      rintro level listed rfl
      apply unlisted
      rw [← shown, listed_depth_once occupied level listed once]
      exact List.mem_append_left filler listed
    rw [← shown, listed_depth_absent occupied price absent] at positive
    exact lt_irrefl 0 positive
  · apply List.pairwise_append.mpr
    refine ⟨once.imp fun apart => .inr (.inr apart), ?_, ?_⟩
    · apply List.Pairwise.imp_of_mem _ (List.pairwise_of_forall fun _ _ => trivial)
      intro first second firstFiller _ _
      exact .inl (hidden first firstFiller)
    · intro first _ second secondFiller
      exact .inr (.inl (hidden second secondFiller))

variable {fields : List Int} {depth : Side → Int → Int} {bids asks : List PriceLevel}

theorem published_side (publishes : Publishes fields depth bids asks) (side : Side) :
    ∃ columns, SnapshotSide side columns (levelsOf bids asks side) := by
  cases side with
  | buy => exact ⟨_, publishes.bidSide⟩
  | sell => exact ⟨_, publishes.askSide⟩

/-- A book of these depths lists the published levels. -/
theorem published_ladder (publishes : Publishes fields depth bids asks) {book : OrderBook}
    (tidy : TidyLevels book)
    (agrees : ∀ side price, depthAtPrice book side price = depth side price)
    (side : Side) : ladder book side = levelsOf bids asks side := by
  rcases published_side publishes side with ⟨columns, snapshot⟩
  apply ladder_eq_of_sorted book side _ snapshot.bestFirst
  apply level_of_listed tidy side _ _ (snapshot_once snapshot)
  · intro price
    rw [agrees, publishes.shown]
  · intro level listed
    exact (snapshot.sound level listed).2.2

/-- The check against a published row finds no difference. -/
theorem published_check_passes (publishes : Publishes fields depth bids asks)
    (arithmetic : FloatArithmetic) (events : List MarketEvent) (samples : List Nat)
    (elapsedNs levels : Nat) (upToTen : levels ≤ 10) (enough : 4 * levels ≤ fields.length)
    (ladders : ∀ side, ladder (orphanFold events samples).book side = levelsOf bids asks side) :
    ∃ sides, readLobsterRow levels fields = some sides ∧
      (checkOf arithmetic events samples elapsedNs sides levels).passes = true := by
  have row := read_lobster_row_eq levels fields enough
  rw [kept_of_first publishes.bidSide, kept_of_first publishes.askSide] at row
  refine ⟨_, row, ?_⟩
  have listed : ∀ side, topN (orphanFold events samples).book side 10 =
      (levelsOf bids asks side).take 10 := by
    intro side
    rw [top_n_eq, ladders]
  have noBids := first_levels_agree bids levels upToTen
  have noAsks := first_levels_agree asks levels upToTen
  simp only [Check.passes, checkOf, checkLevels, reported, listed, levelsOf, noBids, noAsks,
    decide_true, Bool.and_self]

end Publication

section Emission

/-- The fields of a message fit into 64 bits; those of a displayed order also have
their sign, and every message comes after the seeds. -/
structure MessageInRange (args : AdapterArgs) (message : Message) : Prop where
  stamped : 0 < message.timeNs + args.timeBaseNs ∧ message.timeNs + args.timeBaseNs < 2 ^ 64
  orderId : message.orderId < 2 ^ 64
  displayed : message.type = 1 ∨ message.type = 2 ∨ message.type = 3 ∨ message.type = 4 →
    (0 ≤ message.price ∧ message.price < 2 ^ 63) ∧ (0 < message.size ∧ message.size < 2 ^ 63)

/-- The sizes the adapter holds fit into 64 bits. -/
def SizesInRange (active : ActiveTable) : Prop :=
  ∀ (orderId : Nat) (order : ActiveOrder), active[orderId]? = some order →
    0 ≤ order.size ∧ order.size < 2 ^ 63

theorem sizes_insert {active : ActiveTable} (sizes : SizesInRange active) (orderId : Nat)
    (order : ActiveOrder) (fits : 0 ≤ order.size ∧ order.size < 2 ^ 63) :
    SizesInRange (active.insert orderId order) := by
  intro other held stored
  rw [lookup_insert] at stored
  split_ifs at stored with same
  · cases stored
    exact fits
  · exact sizes other held stored

theorem sizes_erase {active : ActiveTable} (sizes : SizesInRange active) (orderId : Nat) :
    SizesInRange (active.erase orderId) := by
  intro other held stored
  rw [lookup_erase] at stored
  split_ifs at stored with same
  exact sizes other held stored

/-- A converted message writes a quantity in range and keeps the sizes in range. -/
structure ConvertsInRange (message : Message) (conversion : Conversion) : Prop where
  displayed : message.type = 1 ∨ message.type = 2 ∨ message.type = 3 ∨ message.type = 4
  quantity : 0 ≤ conversion.tfQty ∧ conversion.tfQty < 2 ^ 63
  positive : conversion.tfType = .add ∨ conversion.tfType = .trade → 1 ≤ conversion.tfQty
  sizes : SizesInRange conversion.active

theorem conversion_in_range {args : AdapterArgs} {active : ActiveTable} {message : Message}
    {conversion : Conversion} (inRange : MessageInRange args message)
    (sizes : SizesInRange active) (converts : convertMessage args active message = some conversion) :
    ConvertsInRange message conversion := by
  have displayed := inRange.displayed
  have weaker : ∀ size : Int, 0 < size ∧ size < 2 ^ 63 → 0 ≤ size ∧ size < 2 ^ 63 :=
    fun size fits => ⟨fits.1.le, fits.2⟩
  unfold convertMessage at converts
  split_ifs at converts with submitted reduced deleted executed
  · cases converts
    have size := (displayed (.inl submitted)).2
    exact ⟨.inl submitted, weaker _ size, fun _ => size.1, sizes_insert sizes _ _ (weaker _ size)⟩
  · have size := (displayed (.inr (.inl reduced))).2
    cases known : active[message.orderId]? with
    | none =>
        simp only [known, Option.some.injEq] at converts
        cases converts
        exact ⟨.inr (.inl reduced), weaker _ size, by simp, sizes⟩
    | some existing =>
        have held := sizes message.orderId existing known
        simp only [known] at converts
        split_ifs at converts with usedUp
        · cases converts
          exact ⟨.inr (.inl reduced), held, by simp, sizes_erase sizes _⟩
        · cases converts
          have left : 0 ≤ max 0 (existing.size - message.size) ∧
              max 0 (existing.size - message.size) < 2 ^ 63 := by omega
          exact ⟨.inr (.inl reduced), left, by simp, sizes_insert sizes _ _ left⟩
  · cases converts
    have size := (displayed (.inr (.inr (.inl deleted)))).2
    exact ⟨.inr (.inr (.inl deleted)), weaker _ size, by simp, sizes_erase sizes _⟩
  · have size := (displayed (.inr (.inr (.inr executed)))).2
    cases known : active[message.orderId]? with
    | none =>
        simp only [known, Option.some.injEq] at converts
        cases converts
        exact ⟨.inr (.inr (.inr executed)), weaker _ size, fun _ => size.1, sizes⟩
    | some existing =>
        have held := sizes message.orderId existing known
        simp only [known] at converts
        split_ifs at converts with usedUp
        · cases converts
          exact ⟨.inr (.inr (.inr executed)), weaker _ size, fun _ => size.1,
            sizes_erase sizes _⟩
        · cases converts
          have left : 0 ≤ existing.size - message.size ∧ existing.size - message.size < 2 ^ 63 := by
            omega
          exact ⟨.inr (.inr (.inr executed)), weaker _ size, fun _ => size.1,
            sizes_insert sizes _ _ left⟩

/-- A row behind the seeds that the parser takes. -/
structure SessionRow (row : AdapterRow) : Prop where
  stamped : 0 < row.timestampNs
  writable : Writable row.toEvent

theorem write_message_rows {args : AdapterArgs} (defaultScale : args.priceScale = 10000)
    {state : AdapterState} {message : Message} (inRange : MessageInRange args message)
    (sizes : SizesInRange state.active) :
    ∃ below, (writeMessage args state message).rows = state.rows ++ below ∧
      (∀ row ∈ below, SessionRow row) ∧ SizesInRange (writeMessage args state message).active := by
  cases converts : convertMessage args state.active message with
  | none =>
      rcases write_message_skipped args state message converts with ⟨rows, active⟩
      refine ⟨[], by rw [rows, List.append_nil], by simp, ?_⟩
      rw [active]
      exact sizes
  | some conversion =>
      rcases write_message_converted args state message conversion converts with ⟨rows, active⟩
      have converted := conversion_in_range inRange sizes converts
      refine ⟨_, rows, ?_, ?_⟩
      · intro row listed
        rw [List.mem_singleton.mp listed]
        have stamped := inRange.stamped
        have price : messagePrice args message = message.price :=
          if_neg (not_not_intro defaultScale)
        have fits : (message.timeNs + args.timeBaseNs).toNat < 2 ^ 64 := by omega
        have priced := (inRange.displayed converted.displayed).1
        rw [← price] at priced
        exact ⟨stamped.1, fits, inRange.orderId, priced, converted.quantity, converted.positive⟩
      · rw [active]
        exact converted.sizes

theorem write_messages_rows {args : AdapterArgs} (defaultScale : args.priceScale = 10000)
    (messages : List Message) (inRange : ∀ message ∈ messages, MessageInRange args message)
    (state : AdapterState) (sizes : SizesInRange state.active) :
    ∃ below, (writeMessages args state messages).rows = state.rows ++ below ∧
      ∀ row ∈ below, SessionRow row := by
  induction messages generalizing state with
  | nil => exact ⟨[], (List.append_nil _).symm, by simp⟩
  | cons message rest ih =>
      rw [List.forall_mem_cons] at inRange
      let reached : AdapterState := { state with msgIndex := state.msgIndex + 1 }
      have stillSizes : SizesInRange reached.active := sizes
      rcases write_message_rows defaultScale inRange.1 stillSizes with
        ⟨first, firstRows, firstSound, kept⟩
      rcases ih inRange.2 (writeMessage args reached message) kept with ⟨later, laterRows, laterSound⟩
      refine ⟨first ++ later, ?_, List.forall_mem_append.mpr ⟨firstSound, laterSound⟩⟩
      rw [writeMessages, laterRows, firstRows, List.append_assoc]

/-- A row of a seed: stamped 0, and in range with its level and id. -/
theorem seed_rows_written (side : Side) (nextSeedId : Nat) (levels : List PriceLevel)
    (ids : nextSeedId + levels.length ≤ 2 ^ 64)
    (inRange : ∀ level ∈ levels,
      (0 ≤ level.1 ∧ level.1 < 2 ^ 63) ∧ (0 < level.2 ∧ level.2 < 2 ^ 63)) :
    ∀ row ∈ seedRows side nextSeedId levels, row.timestampNs = 0 ∧ Writable row.toEvent := by
  induction levels generalizing nextSeedId with
  | nil =>
      intro row listed
      cases listed
  | cons level rest ih =>
      rw [List.forall_mem_cons] at inRange
      rw [List.length_cons] at ids
      intro row listed
      rcases List.mem_cons.mp listed with rfl | later
      · have fits : nextSeedId < 2 ^ 64 := by omega
        have quantity := inRange.1.2
        have stamp : (0 : Nat) < 2 ^ 64 := by decide
        exact ⟨rfl, stamp, fits, inRange.1.1, ⟨quantity.1.le, quantity.2⟩, fun _ => quantity.1⟩
      · exact ih (nextSeedId + 1) (by omega) inRange.2 row later

theorem adapter_fields_event (row : AdapterRow) (stamped : 0 ≤ row.timestampNs) :
    adapterFields row = eventRow row.toEvent := by
  have time : pyInt row.timestampNs = Nat.toDigits 10 row.timestampNs.toNat := by
    obtain ⟨stamp, isStamp⟩ := Int.eq_ofNat_of_zero_le stamped
    rw [isStamp]
    rfl
  rw [adapterFields, eventRow, time]
  rfl

/-- The adapter's file is the feed of its rows' events. -/
theorem adapter_file_feed (rows : List AdapterRow) (stamped : ∀ row ∈ rows, 0 ≤ row.timestampNs) :
    adapterFile rows = writeFeed .crlf (rowEvents rows) := by
  rw [adapterFile, writeFeed, rowEvents, List.flatMap_map]
  apply congrArg (writeRow .crlf headerFields ++ ·)
  apply congrArg List.flatten
  apply List.map_congr_left
  intro row listed
  rw [adapter_fields_event row (stamped row listed)]

theorem leading_seeds_split (seeds below : List AdapterRow)
    (first : ∀ row ∈ seeds, row.timestampNs = 0) (later : ∀ row ∈ below, 0 < row.timestampNs) :
    leadingSeeds (rowEvents (seeds ++ below)) = rowEvents seeds := by
  have isSeed : ∀ event ∈ rowEvents seeds, decide (event.timestampNs = 0) = true := by
    intro event listed
    rcases List.mem_map.mp listed with ⟨row, member, rfl⟩
    simp [AdapterRow.toEvent, first row member]
  rw [leadingSeeds, rowEvents, List.map_append]
  change ((rowEvents seeds) ++ rowEvents below).takeWhile _ = _
  rw [List.takeWhile_append_of_pos isSeed]
  apply List.append_right_eq_self.mpr
  cases below with
  | nil => rfl
  | cons row rest =>
      have stamped := later row List.mem_cons_self
      have notSeed : ¬row.toEvent.timestampNs = 0 := by
        change ¬row.timestampNs.toNat = 0
        omega
      simp [rowEvents, notSeed]

end Emission

section Day

/-- A day whose orderbook file shows the whole book of the exchange: `initial` rests
behind the zeroth message, the rows of the file start with it and end with the book
behind all messages. What the file holds fits into 64 bits, and so does what rests on the
exchange: at each level at all times, on each side at the opening and at the close. -/
structure TradingDay (args : AdapterArgs) where
  initial : ExchangeBook
  zeroth : MessageRow
  messages : List Message
  orderbook : List (List Int)
  firstRow : List Int
  lastRow : List Int
  firstBids : List PriceLevel
  firstAsks : List PriceLevel
  lastBids : List PriceLevel
  lastAsks : List PriceLevel
  sound : SoundExchange args.seedIdBase initial
  present : zeroth ≠ .blank
  valid : ValidRun args.seedIdBase initial messages
  isFirst : orderbook.head? = some firstRow
  isLast : orderbook.getLast? = some lastRow
  publishesFirst : Publishes firstRow (exchangeDepth initial) firstBids firstAsks
  publishesLast : Publishes lastRow (exchangeDepth (messages.foldl exchangeStep initial)) lastBids
    lastAsks
  occupied : firstBids ++ firstAsks ≠ []
  levelsInRange : ∀ level ∈ firstBids ++ firstAsks, level.1 < 2 ^ 63 ∧ level.2 < 2 ^ 63
  idsInRange : args.seedIdBase + firstAsks.length + firstBids.length ≤ 2 ^ 64
  messagesInRange : ∀ message ∈ messages, MessageInRange args message
  depthsInRange : ∀ seen, seen <+: messages → ∀ side price,
    exchangeDepth (seen.foldl exchangeStep initial) side price < 2 ^ 63
  openingInRange : ∀ side, ((levelsOf firstBids firstAsks side).map Prod.snd).sum < 2 ^ 63
  closingInRange : ∀ side, ((levelsOf lastBids lastAsks side).map Prod.snd).sum < 2 ^ 63

variable {args : AdapterArgs}

/-- The message file, as the adapter's reader splits it. -/
def TradingDay.messageRows (day : TradingDay args) : List MessageRow :=
  day.zeroth :: day.messages.map .message

/-- The replay of the seeds shows the opening book. -/
theorem seeds_ladders (day : TradingDay args) (side : Side) :
    ladder (finalState applyEvent orphanBook
      (rowEvents (fileSeeds args day.firstBids day.firstAsks))) side =
      levelsOf day.firstBids day.firstAsks side :=
  (seeded_ladders args { acceptUnknownOrderOps := true } day.publishesFirst.bidSide
    day.publishesFirst.askSide).2 side

/-- The adapter's rows for a day: the seeds and what the messages became, in range all
along. -/
theorem day_converted (defaultScale : args.priceScale = 10000) (day : TradingDay args)
    (path : Text) :
    ∃ output below, convert args (some ⟨path, some day.firstRow⟩) day.messageRows = .ok output ∧
      output.rows = fileSeeds args day.firstBids day.firstAsks ++ below ∧
      (∀ row ∈ below, SessionRow row) ∧
      Replayed args.seedIdBase output (day.messages.foldl exchangeStep day.initial) ∧
      LevelsFit orphanBook (rowEvents output.rows) ∧
      LevelsFit orphanBook (rowEvents (fileSeeds args day.firstBids day.firstAsks)) := by
  have publishes := day.publishesFirst
  have converted := convert_seeded args path day.firstRow publishes.wholeLevels day.zeroth
    day.present day.messages
  have started := seeded_replayed args day.firstRow day.initial day.sound
    (lists_of_snapshot publishes.bidSide (publishes.shown .buy))
    (lists_of_snapshot publishes.askSide (publishes.shown .sell))
  rw [kept_of_columns publishes.bidSide, kept_of_columns publishes.askSide] at converted started
  have noSizes : SizesInRange (seededState args day.firstBids day.firstAsks).active := by
    intro orderId order stored
    rw [seededState, ExtTreeMap.getElem?_empty] at stored
    cases stored
  rcases write_messages_rows defaultScale day.messages day.messagesInRange _ noSizes with
    ⟨below, rows, sound⟩
  have seedsFit : LevelsFit orphanBook (rowEvents (fileSeeds args day.firstBids day.firstAsks)) := by
    apply adds_levels_fit (file_seeds_add args day.firstBids day.firstAsks)
    intro side price
    exact (started.agrees.depth side price).trans_lt
      (day.depthsInRange [] List.nil_prefix side price)
  refine ⟨_, below, converted, rows, sound,
    write_messages_replayed args defaultScale _ _ day.messages started day.valid, ?_, seedsFit⟩
  apply written_levels_fit args orphanBook _ seedsFit
  rintro seen ⟨rest, whole⟩ side price
  have valid := day.valid
  rw [← whole] at valid
  have reached := write_messages_replayed args defaultScale _ _ seen started
    (valid_run_append args.seedIdBase day.initial seen rest valid)
  rw [reached.agrees.depth]
  exact day.depthsInRange seen ⟨rest, whole⟩ side price

/-- What the adapter's file holds for a day: the seeds first, and every replay that
accepts orphans takes all of it, computes no depth out of range and ends at the exchange's
last book. -/
structure DayFeed (day : TradingDay args) (events : List MarketEvent) : Prop where
  writable : ∀ event ∈ events, Writable event
  seeds : leadingSeeds events = rowEvents (fileSeeds args day.firstBids day.firstAsks)
  accepted : ∀ answer ∈ outputs applyEvent orphanBook events, answer = true
  depth : ∀ side price, depthAtPrice (finalState applyEvent orphanBook events) side price =
    exchangeDepth (day.messages.foldl exchangeStep day.initial) side price
  fits : LevelsFit orphanBook events
  seedsFit : LevelsFit orphanBook (leadingSeeds events)

theorem day_seeds_written (day : TradingDay args) :
    ∀ row ∈ fileSeeds args day.firstBids day.firstAsks,
      row.timestampNs = 0 ∧ Writable row.toEvent := by
  have ids := day.idsInRange
  have inRange : ∀ side, ∀ level ∈ levelsOf day.firstBids day.firstAsks side,
      (0 ≤ level.1 ∧ level.1 < 2 ^ 63) ∧ (0 < level.2 ∧ level.2 < 2 ^ 63) := by
    intro side level listed
    rcases published_side day.publishesFirst side with ⟨columns, snapshot⟩
    have seedable := snapshot_seedable snapshot level listed
    have member : level ∈ day.firstBids ++ day.firstAsks := by
      cases side with
      | buy => exact List.mem_append_left _ listed
      | sell => exact List.mem_append_right _ listed
    have fits := day.levelsInRange level member
    exact ⟨⟨seedable.2, fits.1⟩, seedable.1, fits.2⟩
  intro row listed
  rcases List.mem_append.mp listed with ask | bid
  · have asks : args.seedIdBase + day.firstAsks.length ≤ 2 ^ 64 := by omega
    exact seed_rows_written .sell _ _ asks (inRange .sell) row ask
  · exact seed_rows_written .buy _ _ ids (inRange .buy) row bid

/-- The adapter opens the orderbook file and writes the feed of the day. -/
theorem adapter_writes_day (defaultScale : args.priceScale = 10000) (day : TradingDay args)
    (env : Environment) (orderbookPath : Text) (bookEnd : LineEnd)
    (stored : env.openFile orderbookPath = some (orderbookText bookEnd day.orderbook)) :
    ∃ events, runAdapter args env (some orderbookPath) day.messageRows =
      .ok (writeFeed .crlf events) ∧ DayFeed day events := by
  rcases day_converted defaultScale day orderbookPath with
    ⟨output, below, converted, rows, sound, replayed, fits, seedsFit⟩
  have seedRows := day_seeds_written day
  have stamped : ∀ row ∈ output.rows, 0 ≤ row.timestampNs := by
    intro row listed
    rw [rows] at listed
    rcases List.mem_append.mp listed with seed | later
    · exact (seedRows row seed).1.ge
    · exact (sound row later).stamped.le
  have opened : openText env orderbookPath = .ok (orderbookText bookEnd day.orderbook) := by
    simp only [openText, stored]
  have first : openInitialBook orderbookPath (orderbookText bookEnd day.orderbook) =
      .ok ⟨orderbookPath, some day.firstRow⟩ := by
    rcases List.head?_eq_some_iff.mp day.isFirst with ⟨later, isCons⟩
    rw [isCons]
    exact open_orderbook bookEnd orderbookPath day.firstRow later day.publishesFirst.nonempty
  have leading : leadingSeeds (rowEvents output.rows) =
      rowEvents (fileSeeds args day.firstBids day.firstAsks) := by
    rw [rows]
    exact leading_seeds_split _ below (fun row seed => (seedRows row seed).1)
      fun row later => (sound row later).stamped
  rw [← leading] at seedsFit
  refine ⟨rowEvents output.rows, ?_, ?_, leading, replayed.accepted, replayed.agrees.depth, fits,
    seedsFit⟩
  · simp only [runAdapter, initialBookFile, opened, first, bind, Except.bind, converted, pure,
      Except.pure, adapter_file_feed output.rows stamped]
  · intro event listed
    rcases List.mem_map.mp listed with ⟨row, member, rfl⟩
    rw [rows] at member
    rcases List.mem_append.mp member with seed | later
    · exact (seedRows row seed).2
    · exact (sound row later).writable

variable {day : TradingDay args} {events : List MarketEvent}

theorem opening_ladders (feed : DayFeed day events) (samples : List Nat) (side : Side) :
    ladder (orphanFold (leadingSeeds events) samples).book side =
      levelsOf day.firstBids day.firstAsks side := by
  rw [feed.seeds]
  exact seeds_ladders day side

/-- The replay of the whole file shows the closing book. -/
theorem closing_ladders (feed : DayFeed day events) (samples : List Nat) (side : Side) :
    ladder (orphanFold events samples).book side = levelsOf day.lastBids day.lastAsks side := by
  rcases orphan_run_ledgered events with ⟨drained, ledgered⟩
  exact published_ladder day.publishesLast ledgered.tidy feed.depth side

/-- A replay that keeps the levels in range and ends on these ladders can add up its sides. -/
theorem ladders_depth_defined {events : List MarketEvent} (fits : LevelsFit orphanBook events)
    {bids asks : List PriceLevel}
    (ladders : ∀ side, ladder (finalState applyEvent orphanBook events) side =
      levelsOf bids asks side)
    (inRange : ∀ side, ((levelsOf bids asks side).map Prod.snd).sum < 2 ^ 63) :
    DepthDefined orphanBook events := by
  have accounted : ∃ drained, Ledgered orphanBook drained := ⟨_, empty_ledgered _⟩
  rw [depth_defined_iff accounted (empty_small_levels _)]
  refine ⟨fits, ?_⟩
  intro side
  rw [← ladder_total_depth, ladders]
  exact inRange side

theorem none_rejected (feed : DayFeed day events) (samples : List Nat) :
    (orphanFold events samples).rejectedEvents = 0 := by
  apply List.count_eq_zero.mpr
  intro refused
  have answered := feed.accepted false refused
  cases answered

theorem day_is_seeded (feed : DayFeed day events) : leadingSeeds events ≠ [] := by
  rw [feed.seeds]
  intro none
  apply day.occupied
  have counted := congrArg List.length none
  rw [rowEvents, List.length_map, fileSeeds, List.length_append, seed_rows_length,
    seed_rows_length, List.length_nil] at counted
  rw [← List.length_eq_zero_iff, List.length_append]
  omega

/-- One bid of this size, on a row with one level. -/
theorem one_bid_published (depth : Side → Int → Int) (size : Int) (positive : 0 < size)
    (shown : ∀ side price, depth side price =
      if Side.buy = side ∧ (10000 : Int) = price then size else 0) :
    Publishes [9999999999, 0, 10000, size] depth [(10000, size)] [] where
  nonempty := List.cons_ne_nil _ _
  wholeLevels := by simp
  bidSide := by
    refine ⟨⟨[], rfl, by simp⟩, ?_, List.pairwise_singleton _ _⟩
    intro level listed
    rw [List.mem_singleton.mp listed]
    have priced : (0 : Int) ≤ 10000 := by decide
    exact ⟨by simp [Unoccupied, positive.ne'], priced, positive⟩
  askSide := by
    refine ⟨⟨[(9999999999, 0)], rfl, ?_⟩, by simp, List.Pairwise.nil⟩
    intro level listed
    rw [List.mem_singleton.mp listed]
    exact .inl rfl
  shown := by
    intro side price
    rw [shown]
    cases side <;> simp [levelsOf, listedDepth]

def restingBid : ExchangeBook := (∅ : ExchangeBook).insert 7 ⟨.buy, 10000, 20⟩

def bidReduction : Message :=
  { timeNs := 1, type := 2, orderId := 7, size := 5, price := 10000, direction := 1 }

theorem resting_bid_stored : restingBid[7]? = some ⟨.buy, 10000, 20⟩ := by decide

theorem resting_bid_depth (side : Side) (price : Int) : exchangeDepth restingBid side price =
    if Side.buy = side ∧ (10000 : Int) = price then 20 else 0 := by
  have entered : exchangeDepth restingBid side price = _ :=
    total_put (exchangeWeight side price) (∅ : ExchangeBook) 7 (some ⟨.buy, 10000, 20⟩)
  rw [entered]
  simp [exchangeWeight]

theorem reduced_bid_depth (side : Side) (price : Int) :
    exchangeDepth (exchangeStep restingBid bidReduction) side price =
      if Side.buy = side ∧ (10000 : Int) = price then 15 else 0 := by
  have entry : exchangeEntry restingBid[7]? bidReduction = some ⟨.buy, 10000, 15⟩ := by decide
  have resting : restingBid[bidReduction.orderId]? = some ⟨.buy, 10000, 20⟩ := resting_bid_stored
  rw [exchange_step_depth, resting_bid_depth, resting, ← resting_bid_stored, entry,
    resting_bid_stored]
  simp only [share_some, exchangeWeight]
  split_ifs <;> rfl

/-- A bid rests and loses a part. -/
def reducedBidDay : TradingDay {} where
  initial := restingBid
  zeroth := .message { type := 1, orderId := 7, size := 20, price := 10000, direction := 1 }
  messages := [bidReduction]
  orderbook := [[9999999999, 0, 10000, 20], [9999999999, 0, 10000, 15]]
  firstRow := [9999999999, 0, 10000, 20]
  lastRow := [9999999999, 0, 10000, 15]
  firstBids := [(10000, 20)]
  firstAsks := []
  lastBids := [(10000, 15)]
  lastAsks := []
  sound := by
    intro orderId order stored
    rw [restingBid, lookup_insert] at stored
    split_ifs at stored with own
    · cases stored
      subst own
      exact ⟨⟨by decide, by decide, by decide⟩, by decide⟩
    · cases stored
  present := by decide
  valid := by
    refine ⟨?_, trivial⟩
    exact .reduction ⟨.buy, 10000, 20⟩ (.inl rfl) ⟨resting_bid_stored, rfl, rfl⟩ (by decide)
      (by decide)
  isFirst := rfl
  isLast := rfl
  publishesFirst := one_bid_published _ 20 (by decide) resting_bid_depth
  publishesLast := one_bid_published _ 15 (by decide) reduced_bid_depth
  occupied := by decide
  levelsInRange := by decide
  idsInRange := by decide
  messagesInRange := by
    intro message listed
    rw [List.mem_singleton.mp listed]
    exact ⟨by decide, by decide, fun _ => by decide⟩
  depthsInRange := by
    rintro seen ⟨rest, whole⟩ side price
    rcases seen with _ | ⟨first, seen⟩
    · rw [List.foldl_nil, resting_bid_depth]
      split_ifs <;> decide
    · rcases List.append_eq_nil_iff.mp (List.cons.inj whole).2 with ⟨rfl, _⟩
      rw [(List.cons.inj whole).1, List.foldl_cons, List.foldl_nil, reduced_bid_depth]
      split_ifs <;> decide
  openingInRange := by
    intro side
    cases side <;> decide
  closingInRange := by
    intro side
    cases side <;> decide

def reducedBidFiles : Environment :=
  { oneOrderFile with openFile := fun path =>
      if path = "orderbook.csv".toList then some (orderbookText .lf reducedBidDay.orderbook)
      else none }

end Day

end TickForge.DayValidation
