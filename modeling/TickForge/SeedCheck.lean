import TickForge.BookViews
import TickForge.LobsterRescaling
import TickForge.LobsterSnapshot
import TickForge.ReplayReport

/-!
# The seed check

A snapshot whose sides list their occupied levels best first is seeded without a
refusal in either mode, and the ladders of the book are then those levels. The
levels the report prints read back as the row's own, so no rank differs.
-/

namespace TickForge.SeedCheck

open StepRuns MarketEventModel OrderBookModel OrderBookStep DepthLedger OrphanRemoval
open LobsterAdapterModel LobsterSnapshot LobsterRescaling BookViews CsvRoundTrip
open LatencyProfilerModel ReplayEngineModel ReplayReportModel ReplayReport

set_option autoImplicit false

section Row

/-- One side of an orderbook row: the occupied levels, best first, and behind
them what fills the row up. -/
structure SnapshotSide (side : Side) (columns occupied : List PriceLevel) : Prop where
  split : ∃ filler, columns = occupied ++ filler ∧ ∀ level ∈ filler, Unoccupied level
  sound : ∀ level ∈ occupied, ¬Unoccupied level ∧ 0 ≤ level.1 ∧ 0 < level.2
  bestFirst : occupied.Pairwise fun nearer farther => Better side nearer.1 farther.1

variable {side : Side} {columns occupied : List PriceLevel}

theorem kept_of_first (snapshot : SnapshotSide side columns occupied) (n : Nat) :
    (columns.take n).filter isOccupied = occupied.take n := by
  obtain ⟨filler, rfl, hidden⟩ := snapshot.split
  have kept : (occupied.take n).filter isOccupied = occupied.take n := by
    rw [List.filter_eq_self]
    intro level listed
    have sound := snapshot.sound level (List.mem_of_mem_take listed)
    exact (is_occupied_iff level).mpr ⟨sound.1, sound.2.2⟩
  have dropped : (filler.take (n - occupied.length)).filter isOccupied = [] := by
    rw [List.filter_eq_nil_iff]
    intro level listed isKept
    exact ((is_occupied_iff level).mp isKept).1 (hidden level (List.mem_of_mem_take listed))
  rw [List.take_append, List.filter_append, kept, dropped, List.append_nil]

theorem kept_of_columns (snapshot : SnapshotSide side columns occupied) :
    columns.filter isOccupied = occupied := by
  have fits : occupied.length ≤ columns.length := by
    obtain ⟨filler, rfl, _⟩ := snapshot.split
    rw [List.length_append]
    exact Nat.le_add_right _ _
  have kept := kept_of_first snapshot columns.length
  rwa [List.take_length, List.take_of_length_le fits] at kept

theorem snapshot_seedable (snapshot : SnapshotSide side columns occupied) :
    ∀ level ∈ occupied, 0 < level.2 ∧ 0 ≤ level.1 := by
  intro level listed
  have sound := snapshot.sound level listed
  exact ⟨sound.2.2, sound.2.1⟩

theorem better_ne (side : Side) (nearer farther : Int) (better : Better side nearer farther) :
    nearer ≠ farther := by
  rintro rfl
  cases side <;> exact lt_irrefl nearer better

theorem snapshot_once (snapshot : SnapshotSide side columns occupied) :
    occupied.Pairwise fun first second => first.1 ≠ second.1 := by
  apply snapshot.bestFirst.imp
  intro first second better
  exact better_ne side first.1 second.1 better

theorem read_lobster_row_eq (levels : Nat) (fields : List Int)
    (enough : 4 * levels ≤ fields.length) :
    readLobsterRow levels fields =
      some (((bidColumns fields).take levels).filter isOccupied,
        ((askColumns fields).take levels).filter isOccupied) := by
  fun_induction readLobsterRow levels fields with
  | case1 fields => simp
  | case2 levels askPrice askSize bidPrice bidSize rest ih =>
      have enoughBelow : 4 * levels ≤ rest.length := by
        simp only [List.length_cons] at enough
        omega
      rw [ih enoughBelow]
      simp only [Option.map_some, bidColumns, askColumns, List.take_succ_cons, List.filter_cons]
  | case3 levels fields short =>
      rcases fields with _ | ⟨askPrice, _ | ⟨askSize, _ | ⟨bidPrice, _ | ⟨bidSize, rest⟩⟩⟩⟩
      case cons.cons.cons.cons => exact absurd rfl (short _ _ _ _ _)
      all_goals
        simp only [List.length_cons, List.length_nil] at enough
        omega

end Row

section Modes

/-- An ADD takes no notice of the mode. -/
theorem add_under_config (book : OrderBook) (config : OrderBookConfig) (event : MarketEvent)
    (isAdd : event.type = .add) :
    applyEvent (setConfig book config) event =
      ((applyEvent book event).1, setConfig (applyEvent book event).2 config) := by
  simp only [applyEvent, isAdd, addOrder]
  by_cases refused : event.price < 0 ∨ event.quantity ≤ 0
  · rw [if_pos refused, if_pos refused]
  · rw [if_neg refused, if_neg refused]
    cases known : book.orders[event.orderId]? with
    | some order => simp only [setConfig, known]
    | none =>
        simp only [setConfig, known, addDepth]
        cases event.side <;> split_ifs <;> rfl

theorem adds_under_config (book : OrderBook) (config : OrderBookConfig)
    (events : List MarketEvent) (adds : ∀ event ∈ events, event.type = .add) :
    outputs applyEvent (setConfig book config) events = outputs applyEvent book events ∧
      finalState applyEvent (setConfig book config) events =
        setConfig (finalState applyEvent book events) config := by
  induction events generalizing book with
  | nil => exact ⟨rfl, rfl⟩
  | cons event rest ih =>
      have stepped := add_under_config book config event (adds event List.mem_cons_self)
      obtain ⟨sameOutputs, sameState⟩ := ih (applyEvent book event).2 fun later listed =>
        adds later (List.mem_cons_of_mem event listed)
      constructor
      · rw [outputs, outputs, stepped, sameOutputs]
      · rw [final_state_cons, final_state_cons, stepped, sameState]

theorem seed_rows_add (side : Side) (nextSeedId : Nat) (levels : List PriceLevel) :
    ∀ row ∈ seedRows side nextSeedId levels, row.type = .add := by
  induction levels generalizing nextSeedId with
  | nil =>
      intro row listed
      cases listed
  | cons level rest ih =>
      intro row listed
      rcases List.mem_cons.mp listed with rfl | later
      · rfl
      · exact ih (nextSeedId + 1) row later

theorem file_seeds_add (args : AdapterArgs) (bids asks : List PriceLevel) :
    ∀ event ∈ rowEvents (fileSeeds args bids asks), event.type = .add := by
  intro event listed
  obtain ⟨row, member, rfl⟩ := List.mem_map.mp listed
  rcases List.mem_append.mp member with ask | bid
  · exact seed_rows_add .sell _ asks row ask
  · exact seed_rows_add .buy _ bids row bid

end Modes

section Seeding

/-- A level stands where the listed levels put it and nowhere else. -/
theorem level_of_listed {book : OrderBook} (tidy : TidyLevels book) (side : Side)
    (levels : List PriceLevel) (sound : ∀ level ∈ levels, 0 < level.2)
    (once : levels.Pairwise fun first second => first.1 ≠ second.1)
    (depth : ∀ price, depthAtPrice book side price = listedDepth levels price)
    (price quantity : Int) :
    levelAt book side price = some quantity ↔ (price, quantity) ∈ levels := by
  have deep := depth price
  rw [depth_at_price_eq] at deep
  constructor
  · intro held
    rw [held, Option.getD_some] at deep
    have positive := (tidy side price quantity held).1
    by_contra unlisted
    have absent : ∀ level ∈ levels, level.1 ≠ price := by
      rintro level listed rfl
      rw [listed_depth_once levels level listed once] at deep
      exact unlisted (deep ▸ listed)
    rw [deep, listed_depth_absent levels price absent] at positive
    exact lt_irrefl 0 positive
  · intro listed
    rw [listed_depth_once levels (price, quantity) listed once] at deep
    have positive := sound (price, quantity) listed
    cases held : levelAt book side price with
    | none =>
        rw [held, Option.getD_none] at deep
        exact absurd deep positive.ne
    | some shown =>
        rw [held, Option.getD_some] at deep
        rw [deep]

theorem initial_book_read (path : Text) (fields : List Int)
    (wholeLevels : fields.length % 4 = 0) (bids asks : List PriceLevel)
    (bidSide : SnapshotSide .buy (bidColumns fields) bids)
    (askSide : SnapshotSide .sell (askColumns fields) asks) :
    readInitialBook ⟨path, some fields⟩ = .ok (bids, asks) := by
  rw [← kept_of_columns bidSide, ← kept_of_columns askSide, readInitialBook,
    ← occupied_levels_eq]
  exact if_neg (not_not_intro wholeLevels)

end Seeding

section Check

/-- The rows of an accepted orderbook row head the file, whatever messages follow. -/
theorem seeds_head_the_file (args : AdapterArgs) (file : BookFile) (bids asks : List PriceLevel)
    (read : readInitialBook file = .ok (bids, asks)) (rows : List MessageRow) :
    fileSeeds args bids asks <+: emittedRows args (some file) rows := by
  obtain ⟨below, _, written⟩ := emitted_rows_split args file rows bids asks read
  rw [written]
  exact List.prefix_append _ _

theorem seeds_without_messages (args : AdapterArgs) (file : BookFile)
    (bids asks : List PriceLevel) (read : readInitialBook file = .ok (bids, asks)) :
    emittedRows args (some file) [] = fileSeeds args bids asks := by
  simp only [emittedRows, read, write_seeds_eq, List.nil_append]
  rfl

/-- The seeds of a snapshot are accepted in either mode, and the ladders are the
snapshot's levels. -/
theorem seeded_ladders (args : AdapterArgs) (config : OrderBookConfig)
    {bidRow askRow bids asks : List PriceLevel}
    (bidSide : SnapshotSide .buy bidRow bids) (askSide : SnapshotSide .sell askRow asks) :
    (∀ answer ∈ outputs applyEvent { config := config } (rowEvents (fileSeeds args bids asks)),
        answer = true) ∧
      ∀ side,
        ladder (finalState applyEvent { config := config } (rowEvents (fileSeeds args bids asks)))
          side = levelsOf bids asks side := by
  obtain ⟨accepted, seeded⟩ := both_sides_seeded args.seedIdBase bids asks
    (snapshot_seedable bidSide) (snapshot_seedable askSide)
  obtain ⟨sameOutputs, sameState⟩ :=
    adds_under_config orphanBook config _ (file_seeds_add args bids asks)
  change outputs applyEvent { config := config } _ = _ at sameOutputs
  change finalState applyEvent { config := config } _ = _ at sameState
  rw [sameOutputs, sameState]
  obtain ⟨_, ledgered⟩ :=
    orphan_run_ledgered (rowEvents (fileSeeds args bids asks))
  refine ⟨accepted, ?_⟩
  intro side
  have snapshot : ∃ row, SnapshotSide side row (levelsOf bids asks side) := by
    cases side with
    | buy => exact ⟨bidRow, bidSide⟩
    | sell => exact ⟨askRow, askSide⟩
  obtain ⟨row, shown⟩ := snapshot
  apply ladder_eq_of_sorted _ _ _ shown.bestFirst
  apply level_of_listed ledgered.tidy side _ _ (snapshot_once shown) (seeded.depth side)
  intro level listed
  exact (snapshot_seedable shown level listed).1

theorem diff_eq_zero (tf lob : List PriceLevel) (levels : Nat)
    (same : tf.take levels = lob.take levels) : diff tf lob levels = 0 := by
  rw [diff, List.countP_eq_zero]
  intro rank listed
  have inside : rank < levels := List.mem_range.mp listed
  rw [decide_eq_true_iff, not_not, ← List.getElem?_take_of_lt inside, same,
    List.getElem?_take_of_lt inside]

/-- The check compares the first ten of the book with the first of the row. -/
theorem first_levels_agree (listed : List PriceLevel) (levels : Nat) (upToTen : levels ≤ 10) :
    diff (listed.take 10) (listed.take levels) levels = 0 := by
  apply diff_eq_zero
  rw [List.take_take, List.take_take, Nat.min_eq_left upToTen, Nat.min_self]

/-- For every snapshot listed best first the seeds are accepted in either mode,
the book lists the occupied levels in row order, the first ten of them are read back from
what is printed, and the check finds no difference at any number of levels it can be asked
for. -/
theorem seed_check_passes (args : AdapterArgs) (path : Text) (fields : List Int)
    (wholeLevels : fields.length % 4 = 0) (bids asks : List PriceLevel)
    (bidSide : SnapshotSide .buy (bidColumns fields) bids)
    (askSide : SnapshotSide .sell (askColumns fields) asks)
    (config : OrderBookConfig) (summary : ReplaySummary) :
    let seeds := emittedRows args (some ⟨path, some fields⟩) []
    let book := finalState applyEvent { config := config } (rowEvents seeds)
    (∀ rows, seeds <+: emittedRows args (some ⟨path, some fields⟩) rows) ∧
      (∀ answer ∈ outputs applyEvent { config := config } (rowEvents seeds), answer = true) ∧
      (∀ n, topN book .sell n = asks.take n ∧ topN book .buy n = bids.take n) ∧
      ∃ reading, replay (streamOutput summary book) = some reading ∧
        reading.bids = bids.take 10 ∧ reading.asks = asks.take 10 ∧
        ∀ levels, levels ≤ 10 → 4 * levels ≤ fields.length →
          ∃ lobBids lobAsks, readLobsterRow levels fields = some (lobBids, lobAsks) ∧
            diff reading.bids lobBids levels = 0 ∧ diff reading.asks lobAsks levels = 0 := by
  intro seeds book
  have read := initial_book_read path fields wholeLevels bids asks bidSide askSide
  have written : seeds = fileSeeds args bids asks := seeds_without_messages args _ bids asks read
  obtain ⟨accepted, ladders⟩ := seeded_ladders args config bidSide askSide
  have listed : ∀ side n, topN book side n = (levelsOf bids asks side).take n := by
    intro side n
    have laddered := ladders side
    rw [← written] at laddered
    rw [top_n_eq]
    exact congrArg (List.take n) laddered
  refine ⟨?_, ?_, fun n => ⟨listed .sell n, listed .buy n⟩, ?_⟩
  · rw [written]
    exact seeds_head_the_file args _ bids asks read
  · rw [written]
    exact accepted
  · refine ⟨reported summary book, replay_reads_stream summary book, listed .buy 10,
      listed .sell 10, ?_⟩
    intro levels upToTen enough
    have row := read_lobster_row_eq levels fields enough
    rw [kept_of_first bidSide, kept_of_first askSide] at row
    refine ⟨_, _, row, ?_, ?_⟩
    · change diff (topN book .buy 10) _ levels = 0
      rw [listed .buy 10]
      exact first_levels_agree bids levels upToTen
    · change diff (topN book .sell 10) _ levels = 0
      rw [listed .sell 10]
      exact first_levels_agree asks levels upToTen

/-- Two levels of asks and one of bids, with what a replay of their seeds prints. -/
theorem two_level_snapshot_passes :
    let fields : List Int := [10002, 5, 10000, 7, 10004, 3, -9999999999, 0]
    let file : BookFile := ⟨"orderbook.csv".toList, some fields⟩
    let book := finalState applyEvent {} (rowEvents (emittedRows {} (some file) []))
    let summary := summarize (machineArithmetic 64)
      { book := book, profiler := ⟨[120, 60, 45]⟩, eventsProcessed := 3 } 400
    topN book .sell 10 = [(10002, 5), (10004, 3)] ∧
      ∃ reading lobBids lobAsks, replay (streamOutput summary book) = some reading ∧
        reading.bids = [(10000, 7)] ∧ readLobsterRow 2 fields = some (lobBids, lobAsks) ∧
        diff reading.bids lobBids 2 = 0 ∧ diff reading.asks lobAsks 2 = 0 := by
  intro fields file book summary
  have bidSide : SnapshotSide .buy (bidColumns fields) [(10000, 7)] := by
    refine ⟨⟨[(-9999999999, 0)], rfl, ?_⟩, ?_, List.pairwise_singleton _ _⟩
    · simp [Unoccupied]
    · simp [Unoccupied]
  have askSide : SnapshotSide .sell (askColumns fields) [(10002, 5), (10004, 3)] := by
    refine ⟨⟨[], rfl, ?_⟩, ?_, ?_⟩
    · simp
    · simp [Unoccupied]
    · simp [Better]
  rcases seed_check_passes {} "orderbook.csv".toList fields (by simp [fields]) _ _ bidSide
    askSide {} summary with ⟨_, _, listed, reading, replayed, readBids, _, passes⟩
  rcases passes 2 (by decide) (by decide) with ⟨lobBids, lobAsks, row, sameBids, sameAsks⟩
  exact ⟨(listed 10).1, reading, lobBids, lobAsks, replayed, readBids, row, sameBids, sameAsks⟩

end Check

end TickForge.SeedCheck
