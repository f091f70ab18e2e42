import TickForge.ReportReading

/-!
# What the scripts find in written files

A feed is counted and cut at the line after its last leading event stamped 0,
whichever line end it was written with. The rows of a written orderbook file are
read back as the numbers they hold.
-/

namespace TickForge.ScriptFiles

open DelimitedText CsvReader MarketEventModel OrderBookModel CsvParserModel CsvRoundTrip
open LobsterAdapterModel ReplayReportModel ReplayReport ReplayScriptsModel

set_option autoImplicit false

section Lines

/-- No letter of the line ends it. -/
def OneLine (line : Text) : Prop := ∀ letter ∈ line, isLineEnd letter = false

theorem one_line_avoids {line : Text} (whole : OneLine line) : '\r' ∉ line ∧ '\n' ∉ line := by
  constructor
  · intro listed
    have ends := whole '\r' listed
    revert ends
    decide
  · intro listed
    have ends := whole '\n' listed
    revert ends
    decide

theorem universal_append (line rest : Text) (absent : '\r' ∉ line) :
    universalNewlines (line ++ rest) = line ++ universalNewlines rest := by
  induction line with
  | nil => rfl
  | cons letter later ih =>
      rw [List.mem_cons, not_or] at absent
      have notReturn : letter ≠ '\r' := Ne.symm absent.1
      rw [List.cons_append, universalNewlines.eq_3, if_neg notReturn, ih absent.2, List.cons_append]
      intro other isReturn
      exact absurd isReturn notReturn

/-- Either line end reads as a newline. -/
theorem universal_line_end (lineEnd : LineEnd) (rest : Text) :
    universalNewlines (lineEnd.text ++ rest) = '\n' :: universalNewlines rest := by
  cases lineEnd with
  | crlf => exact universalNewlines.eq_2 rest
  | lf => exact universal_append ['\n'] rest (by decide)

theorem universal_lines (lineEnd : LineEnd) (lines : List Text)
    (whole : ∀ line ∈ lines, OneLine line) :
    universalNewlines (lines.flatMap (· ++ lineEnd.text)) = lines.flatMap (· ++ ['\n']) := by
  induction lines with
  | nil => rfl
  | cons line rest ih =>
      rw [List.forall_mem_cons] at whole
      rw [List.flatMap_cons, List.append_assoc,
        universal_append _ _ (one_line_avoids whole.1).1, universal_line_end, ih whole.2,
        List.flatMap_cons, List.append_assoc]
      rfl

theorem text_lines_found (lineEnd : LineEnd) (lines : List Text)
    (whole : ∀ line ∈ lines, OneLine line) :
    textLines (lines.flatMap (· ++ lineEnd.text)) = lines.map (· ++ ['\n']) := by
  rw [textLines, universal_lines lineEnd lines whole]
  apply kept_lines_of_terminated
  intro line listed
  exact (one_line_avoids (whole line listed)).2

end Lines

section Feeds

/-- The rows of a feed, header first. -/
def feedRows (events : List MarketEvent) : List (List Text) := headerFields :: events.map eventRow

theorem feed_rows_plain (events : List MarketEvent) :
    ∀ fields ∈ feedRows events, ∀ field ∈ fields, Plain field := by
  rw [feedRows, List.forall_mem_cons]
  refine ⟨header_fields_plain, ?_⟩
  intro fields listed
  rcases List.mem_map.mp listed with ⟨event, _, rfl⟩
  exact event_row_plain event

theorem py_int_written (value : Int) : pyInt value ≠ [] := by
  cases value with
  | ofNat magnitude => exact Nat.toDigits_ne_nil
  | negSucc magnitude => exact List.cons_ne_nil _ _

theorem feed_rows_filled (events : List MarketEvent) :
    ∀ fields ∈ feedRows events, fields ≠ [] ∧ ∀ field ∈ fields, field ≠ [] := by
  have named : ∀ field ∈ headerFields, field ≠ [] := by decide
  rw [feedRows, List.forall_mem_cons]
  refine ⟨⟨by decide, named⟩, ?_⟩
  intro fields listed
  rcases List.mem_map.mp listed with ⟨event, _, rfl⟩
  have typeNamed : eventTypeToString event.type ≠ [] := by cases event.type <;> decide
  have sideNamed : sideToString event.side ≠ [] := by cases event.side <;> decide
  refine ⟨List.cons_ne_nil _ _, ?_⟩
  simp only [eventRow, List.forall_mem_cons]
  exact ⟨Nat.toDigits_ne_nil, typeNamed, Nat.toDigits_ne_nil, sideNamed, py_int_written _,
    py_int_written _, by simp⟩

theorem plain_unquoted {field : Text} (plain : Plain field) (nonempty : field ≠ []) :
    Unquoted field := by
  refine ⟨nonempty, ?_⟩
  intro letter listed
  rcases plain letter listed with ⟨notTrimmed, notComma, notQuote⟩
  refine ⟨notComma, notQuote, ?_⟩
  simp only [isTrimmed, Bool.or_eq_false_iff] at notTrimmed
  simp only [isLineEnd, Bool.or_eq_false_iff]
  exact ⟨notTrimmed.2, notTrimmed.1.2⟩

def joined (fields : List Text) : Text := [','].intercalate fields

/-- A feed is its rows, each on a line. -/
theorem write_feed_rows (lineEnd : LineEnd) (events : List MarketEvent) :
    writeFeed lineEnd events = ((feedRows events).map joined).flatMap (· ++ lineEnd.text) := by
  rw [writeFeed, feedRows, List.map_cons, List.flatMap_cons, List.map_map, List.flatMap_map,
    write_row_plain lineEnd _ header_fields_plain]
  apply congrArg (joined headerFields ++ lineEnd.text ++ ·)
  apply congrArg List.flatten
  apply List.map_congr_left
  intro event _
  exact write_row_plain lineEnd _ (event_row_plain event)

theorem joined_one_line (fields : List Text)
    (whole : ∀ field ∈ fields, ∀ letter ∈ field, isLineEnd letter = false) :
    OneLine (joined fields) := by
  intro letter listed
  by_contra ends
  have isEnd : isLineEnd letter = true := by simpa using ends
  have apart : ∀ field ∈ fields, letter ∉ field := by
    intro field member inside
    exact ends (whole field member letter inside)
  have notComma : letter ≠ ',' := by
    rintro rfl
    revert isEnd
    decide
  exact joined_avoids ',' letter notComma fields apart listed

theorem feed_rows_one_line (events : List MarketEvent) :
    ∀ line ∈ (feedRows events).map joined, OneLine line := by
  intro line listed
  rcases List.mem_map.mp listed with ⟨fields, member, rfl⟩
  apply joined_one_line
  intro field inside letter letterInside
  have filled := (feed_rows_filled events fields member).2 field inside
  have unquoted := plain_unquoted (feed_rows_plain events fields member field inside) filled
  exact (unquoted.2 letter letterInside).2.2

theorem feed_text_lines (lineEnd : LineEnd) (events : List MarketEvent) :
    textLines (writeFeed lineEnd events) = (feedRows events).map unquotedLine := by
  rw [write_feed_rows, text_lines_found lineEnd _ (feed_rows_one_line events), List.map_map]
  rfl

theorem feed_read_rows (lineEnd : LineEnd) (events : List MarketEvent) :
    readRows {} (textLines (writeFeed lineEnd events)) = (feedRows events, false) := by
  rw [feed_text_lines]
  apply read_unquoted_rows
  · intro fields listed
    exact (feed_rows_filled events fields listed).1
  · intro fields listed field inside
    exact plain_unquoted (feed_rows_plain events fields listed field inside)
      ((feed_rows_filled events fields listed).2 field inside)

/-- The leading events stamped 0. -/
def leadingSeeds (events : List MarketEvent) : List MarketEvent :=
  events.takeWhile fun event => event.timestampNs = 0

theorem count_seed_rows (events : List MarketEvent) :
    countSeedRows false (events.map eventRow) = .ok (leadingSeeds events).length := by
  induction events with
  | nil => rfl
  | cons event rest ih =>
      have stamped : readInt (Nat.toDigits 10 event.timestampNs) = some (event.timestampNs : Int) :=
        read_int_py_int (Int.ofNat event.timestampNs)
      have wide : ¬(eventRow event).length < 6 := by simp [eventRow]
      rw [List.map_cons, countSeedRows, if_neg wide]
      simp only [eventRow, List.headD_cons, stamped, Int.natCast_eq_zero]
      rw [leadingSeeds, List.takeWhile_cons]
      by_cases isSeed : event.timestampNs = 0
      · simp only [isSeed, if_true, ih, decide_true, List.length_cons, leadingSeeds]
      · simp only [isSeed, if_false, decide_false, Bool.false_eq_true, List.length_nil]

theorem count_feed_seeds (lineEnd : LineEnd) (events : List MarketEvent) :
    countSeedEvents (writeFeed lineEnd events) = .ok (leadingSeeds events).length := by
  rw [countSeedEvents, feed_read_rows]
  exact count_seed_rows events

theorem slice_feed (lineEnd : LineEnd) (events : List MarketEvent) (nSeeds : Nat)
    (enough : nSeeds ≤ events.length) :
    sliceSeeds nSeeds (writeFeed lineEnd events) = .ok (writeFeed .lf (events.take nSeeds)) := by
  have longEnough : ¬(textLines (writeFeed lineEnd events)).length < nSeeds + 1 := by
    rw [feed_text_lines, List.length_map, feedRows, List.length_cons, List.length_map]
    omega
  simp only [sliceSeeds, if_neg longEnough]
  rw [feed_text_lines, ← List.map_take, feedRows, List.take_succ_cons, ← List.map_take,
    write_feed_rows, List.flatMap_map]
  rfl

/-- For every feed, in either line end, what the validator counts and cuts off is a
feed of its own: the leading events stamped 0, which the parser reads from it. -/
theorem seed_slice_is_leading_events (lineEnd : LineEnd) (events : List MarketEvent)
    (writable : ∀ event ∈ events, Writable event) (sourceName : Text) :
    ∃ nSeeds slice, countSeedEvents (writeFeed lineEnd events) = .ok nSeeds ∧
      sliceSeeds nSeeds (writeFeed lineEnd events) = .ok slice ∧
      parseStream slice sourceName = ⟨leadingSeeds events, []⟩ := by
  have counted := count_feed_seeds lineEnd events
  have leading : leadingSeeds events <+: events := List.takeWhile_prefix _
  have cut := slice_feed lineEnd events _ leading.length_le
  rw [← List.prefix_iff_eq_take.mp leading] at cut
  refine ⟨_, _, counted, cut, ?_⟩
  apply parse_write_feed
  intro event listed
  exact writable event (leading.subset listed)

/-- One seed and an event of the session, written with a return before each line feed. -/
theorem one_seed_is_cut_off :
    let events : List MarketEvent :=
      [{ orderId := 1, price := 10000, quantity := 20 },
        { timestampNs := 7, type := .cancel, orderId := 1, price := 10000 }]
    ∃ nSeeds slice, countSeedEvents (writeFeed .crlf events) = .ok nSeeds ∧
      sliceSeeds nSeeds (writeFeed .crlf events) = .ok slice ∧
      parseStream slice [] = ⟨leadingSeeds events, []⟩ := by
  intro events
  apply seed_slice_is_leading_events
  intro event listed
  have inRange : event.timestampNs < 2 ^ 64 ∧ event.orderId < 2 ^ 64 ∧
      (0 ≤ event.price ∧ event.price < 2 ^ 63) ∧ (0 ≤ event.quantity ∧ event.quantity < 2 ^ 63) ∧
      (event.type = .add ∨ event.type = .trade → 1 ≤ event.quantity) := by
    revert event
    decide
  rcases inRange with ⟨timestampNs, orderId, price, quantity, positive⟩
  exact ⟨timestampNs, orderId, price, quantity, positive⟩

end Feeds

section OrderbookFile

/-- The text of an orderbook file with these rows. -/
def orderbookText (lineEnd : LineEnd) (rows : List (List Int)) : Text :=
  (rows.map fun fields => joined (fields.map pyInt)).flatMap (· ++ lineEnd.text)

theorem py_int_row_letters (fields : List Int) (letter : Char)
    (listed : letter ∈ joined (fields.map pyInt)) : isFigure letter = true ∨ letter = ',' := by
  by_contra neither
  rw [not_or] at neither
  refine joined_avoids ',' letter neither.2 (fields.map pyInt) ?_ listed
  intro field member inside
  rcases List.mem_map.mp member with ⟨value, _, rfl⟩
  exact neither.1 (py_int_figures value letter inside)

/-- Nothing in the line of a row is trimmed or ends it. -/
theorem py_int_row_solid (fields : List Int) :
    ∀ letter ∈ joined (fields.map pyInt), isPySpace letter = false ∧ isLineEnd letter = false := by
  intro letter listed
  rcases py_int_row_letters fields letter listed with figure | rfl
  · have solid := figure_solid figure
    refine ⟨solid.1, ?_⟩
    by_contra ends
    have isEnd : isLineEnd letter = true := by simpa using ends
    simp only [isLineEnd, Bool.or_eq_true, decide_eq_true_iff] at isEnd
    rcases isEnd with rfl | rfl
    · revert figure
      decide
    · revert figure
      decide
  · decide

theorem orderbook_lines (lineEnd : LineEnd) (rows : List (List Int)) :
    textLines (orderbookText lineEnd rows) =
      rows.map fun fields => joined (fields.map pyInt) ++ ['\n'] := by
  rw [orderbookText, text_lines_found, List.map_map]
  · rfl
  · intro line listed
    rcases List.mem_map.mp listed with ⟨fields, _, rfl⟩
    exact fun letter inside => (py_int_row_solid fields letter inside).2

theorem strip_row (fields : List Int) :
    strip (joined (fields.map pyInt) ++ ['\n']) = joined (fields.map pyInt) := by
  have newline : ∀ letter ∈ ['\n'], isPySpace letter = true := by
    intro letter listed
    rw [List.mem_singleton.mp listed]
    rfl
  have padded := trimmed_append_right isPySpace (joined (fields.map pyInt)) ['\n'] newline
  refine padded.trans (trimmed_of_no_blank isPySpace _ ?_)
  exact fun letter listed => (py_int_row_solid fields letter listed).1

theorem read_int_row (fields : List Int) : (fields.map pyInt).mapM readInt = some fields := by
  induction fields with
  | nil => rfl
  | cons value rest ih =>
      rw [List.map_cons, List.mapM_cons, read_int_py_int, ih]
      rfl

theorem int_fields_row (fields : List Int) (nonempty : fields ≠ []) :
    intFields (joined (fields.map pyInt) ++ ['\n']) = .ok fields := by
  have noComma : ∀ field ∈ fields.map pyInt, ',' ∉ field := by
    intro field listed
    rcases List.mem_map.mp listed with ⟨value, _, rfl⟩
    exact figures_avoid (py_int_figures value) (by decide)
  have split : (joined (fields.map pyInt)).splitOn ',' = fields.map pyInt := by
    apply List.splitOn_intercalate ',' noComma
    exact fun none => nonempty (List.map_eq_nil_iff.mp none)
  rw [intFields, strip_row, split, read_int_row]

theorem read_orderbook_row (lineEnd : LineEnd) (rows : List (List Int)) (rowIndex levels : Nat)
    (fields : List Int) (stored : rows[rowIndex]? = some fields) (nonempty : fields ≠ [])
    (sides : List PriceLevel × List PriceLevel)
    (read : readLobsterRow levels fields = some sides) :
    readRow (orderbookText lineEnd rows) rowIndex levels = .ok sides := by
  simp only [readRow, orderbook_lines, List.getElem?_map, stored, Option.map_some,
    int_fields_row fields nonempty, read]

/-- Only a row without numbers is blank. -/
theorem row_filled (fields : List Int) :
    strip (joined (fields.map pyInt) ++ ['\n']) = [] ↔ fields = [] := by
  rw [strip_row]
  constructor
  · intro blank
    cases fields with
    | nil => rfl
    | cons value rest =>
        have written : pyInt value ≠ [] := py_int_written value
        cases rest with
        | nil =>
            rw [List.map_singleton, joined, List.intercalate_singleton] at blank
            exact absurd blank written
        | cons next others =>
            rw [List.map_cons, List.map_cons, joined, List.intercalate_cons_cons] at blank
            exact absurd (List.append_eq_nil_iff.mp (List.append_eq_nil_iff.mp blank).1).1 written
  · rintro rfl
    rfl

/-- The first row is the one the adapter opens. -/
theorem open_orderbook (lineEnd : LineEnd) (path : Text) (fields : List Int)
    (later : List (List Int)) (nonempty : fields ≠ []) :
    openInitialBook path (orderbookText lineEnd (fields :: later)) = .ok ⟨path, some fields⟩ := by
  have filled : strip (joined (fields.map pyInt) ++ ['\n']) ≠ [] :=
    fun blank => nonempty ((row_filled fields).mp blank)
  rw [openInitialBook, orderbook_lines, List.map_cons, List.find?_cons_of_pos (by simpa using filled)]
  simp only [int_fields_row fields nonempty]

/-- The last row is the one the comparison reads. -/
theorem read_last_row (lineEnd : LineEnd) (path : Text) (rows : List (List Int)) (levels : Nat)
    (fields : List Int) (isLast : rows.getLast? = some fields) (nonempty : fields ≠ [])
    (enough : 4 * levels ≤ fields.length) :
    readLobsterLastRow path (orderbookText lineEnd rows) levels =
      .ok (lastRowSides levels fields) := by
  rcases List.getLast?_eq_some_iff.mp isLast with ⟨earlier, rfl⟩
  have filled : strip (joined (fields.map pyInt) ++ ['\n']) ≠ [] :=
    fun blank => nonempty ((row_filled fields).mp blank)
  have kept : [joined (fields.map pyInt) ++ ['\n']].filter (fun line => strip line ≠ []) =
      [joined (fields.map pyInt) ++ ['\n']] := List.filter_cons_of_pos (by simpa using filled)
  have short : ¬fields.length < 4 * levels := not_lt.mpr enough
  rw [readLobsterLastRow, orderbook_lines, List.map_append, List.map_singleton, List.filter_append,
    kept, List.getLast?_concat]
  simp only [int_fields_row fields nonempty, if_neg short]

end OrderbookFile

end TickForge.ScriptFiles
