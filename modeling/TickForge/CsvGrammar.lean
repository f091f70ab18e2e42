import TickForge.CsvParserModel

/-!
# What the CSV parser accepts

The row grammar is stated on the characters alone: six trimmed fields, two
bounded naturals, two names and two bounded nonnegative decimals. Every line is
silent, a row or faulty, and the parser reads a text line by line accordingly.
-/

namespace TickForge.CsvGrammar

open DelimitedText MarketEventModel CsvParserModel

set_option autoImplicit false

section Grammar

/-- An all-digit text of the given value. -/
def IsNumber (text : Text) (value : Nat) : Prop :=
  text ≠ [] ∧ (∀ letter ∈ text, letter.isDigit = true) ∧ Nat.ofDigitChars 10 text 0 = value

def IsUint64 (text : Text) (value : Nat) : Prop := IsNumber text value ∧ value < 2 ^ 64

/-- A decimal in `0 .. 2^63 - 1`; only zero may carry a minus sign. -/
def IsNonNegative (text : Text) (value : Int) : Prop :=
  ∃ magnitude : Nat, value = magnitude ∧ magnitude < 2 ^ 63 ∧
    (IsNumber text magnitude ∨
      ∃ digits, text = '-' :: digits ∧ IsNumber digits 0 ∧ magnitude = 0)

def trimmedFields (line : Text) : List Text := (line.splitOn ',').map trim

/-- Six fields that spell the event. -/
inductive IsRow : List Text → MarketEvent → Prop where
  | fields {timestampNs type orderId side price quantity : Text} {event : MarketEvent}
      (isTimestampNs : IsUint64 timestampNs event.timestampNs)
      (isType : type = eventTypeToString event.type)
      (isOrderId : IsUint64 orderId event.orderId)
      (isSide : side = sideToString event.side)
      (isPrice : IsNonNegative price event.price)
      (isQuantity : IsNonNegative quantity event.quantity)
      (positive : event.type = .add ∨ event.type = .trade → event.quantity ≠ 0) :
      IsRow [timestampNs, type, orderId, side, price, quantity] event

/-- A blank line or a header line. -/
def Silent (line : Text) : Prop := trim line = [] ∨ trimmedFields line = headerFields

/-- What one numbered line contributes. -/
inductive Contributes (number : Nat) (line : Text) : List MarketEvent → List ParseError → Prop where
  | silent (isSilent : Silent line) : Contributes number line [] []
  | row (notSilent : ¬Silent line) (event : MarketEvent)
      (isRow : IsRow (trimmedFields line) event) : Contributes number line [event] []
  | faulty (notSilent : ¬Silent line) (noRow : ∀ event, ¬IsRow (trimmedFields line) event)
      (errors : List ParseError) (nonempty : errors ≠ [])
      (located : ∀ error ∈ errors, error.line = number ∧ error.row = trim line) :
      Contributes number line [] errors

/-- The lines from `number` on contribute in their order. -/
inductive Reads : Nat → List Text → List MarketEvent → List ParseError → Prop where
  | done (number : Nat) : Reads number [] [] []
  | line {number : Nat} {line : Text} {rest : List Text} {events laterEvents : List MarketEvent}
      {errors laterErrors : List ParseError} (contributes : Contributes number line events errors)
      (later : Reads (number + 1) rest laterEvents laterErrors) :
      Reads number (line :: rest) (events ++ laterEvents) (errors ++ laterErrors)

end Grammar

section Splitting

theorem split_at_comma (text : Text) (listed : ',' ∈ text) :
    text.splitOn ',' =
      text.take (text.idxOf ',') :: (text.drop (text.idxOf ',' + 1)).splitOn ',' := by
  have inside := List.idxOf_lt_length_of_mem listed
  have whole : text = text.take (text.idxOf ',') ++ ',' :: text.drop (text.idxOf ',' + 1) := by
    have cut := List.drop_eq_getElem_cons inside
    rw [List.getElem_idxOf inside] at cut
    rw [← cut, List.take_append_drop]
  have absent : ',' ∉ text.take (text.idxOf ',') := by
    intro early
    have earlier := List.idxOf_lt_length_of_mem early
    rw [List.length_take] at earlier
    have same : (text.take (text.idxOf ',')).idxOf ',' = text.idxOf ',' := by
      conv_rhs => rw [whole]
      rw [List.idxOf_append_of_mem early]
    omega
  conv_lhs => rw [whole]
  exact List.splitOn_append_cons_self_of_not_mem absent _

/-- The splitting loop yields the trimmed pieces between commas. -/
theorem split_from_eq (line : Text) (start : Nat) (fields : List Text)
    (inside : start ≤ line.length) :
    splitFrom line start fields = fields ++ trimmedFields (line.drop start) := by
  induction start, fields using splitFrom.induct line with
  | case1 start fields _ last =>
      have absent : ',' ∉ line.drop start := by
        unfold findComma at last
        split_ifs at last with listed
        exact listed
      rw [splitFrom, if_pos inside, last]
      simp only [trimmedFields, List.splitOn_eq_singleton absent, List.map_cons, List.map_nil]
  | case2 start fields _ comma found ih =>
      have bounds := find_comma_bounds found
      rw [splitFrom, if_pos inside, found]
      unfold findComma at found
      split_ifs at found with listed
      cases found
      dsimp only
      rw [ih (by omega), trimmedFields, trimmedFields, split_at_comma _ listed, List.drop_drop]
      simp [Nat.add_assoc]
  | case3 start fields outside => exact absurd inside outside

theorem split_csv_line_eq (line : Text) : splitCsvLine line = trimmedFields line := by
  rw [splitCsvLine, split_from_eq line 0 [] (Nat.zero_le _)]
  rfl

theorem trimmed_fields_trim (line : Text) : trimmedFields (trim line) = trimmedFields line :=
  split_trimmed isTrimmed ',' (by decide) line

end Splitting

section Numbers

theorem take_digits_eq_self (text : Text) (rest : text.dropWhile Char.isDigit = []) :
    text.takeWhile Char.isDigit = text := by
  have whole := List.takeWhile_append_dropWhile (p := Char.isDigit) (l := text)
  rwa [rest, List.append_nil] at whole

theorem parse_uint64_eq_some_iff (text : Text) (value : Nat) :
    parseUint64 text = some value ↔ IsUint64 text value := by
  constructor
  · intro parsed
    simp only [parseUint64, fromCharsUint64] at parsed
    split_ifs at parsed with empty noDigits _ inRange wholly
    have digits := take_digits_eq_self text wholly.2
    rw [digits] at parsed inRange
    cases parsed
    exact ⟨⟨empty, List.dropWhile_eq_nil_iff.mp wholly.2, rfl⟩, inRange⟩
  · rintro ⟨⟨nonempty, allDigits, rfl⟩, inRange⟩
    have rest := List.dropWhile_eq_nil_iff.mpr allDigits
    have digits := take_digits_eq_self text rest
    simp only [parseUint64, fromCharsUint64, if_neg nonempty, digits, rest, if_pos inRange,
      and_self, if_true]

theorem parse_int64_minus (digits : Text) (value : Int) :
    parseInt64 ('-' :: digits) = some value ↔
      ∃ magnitude : Nat, IsNumber digits magnitude ∧ value = -(magnitude : Int) ∧
        magnitude ≤ 2 ^ 63 := by
  constructor
  · intro parsed
    simp only [parseInt64, fromCharsInt64, List.head?_cons, if_true, List.drop_one,
      List.tail_cons, reduceCtorEq, if_false] at parsed
    split_ifs at parsed with noDigits _ inRange wholly
    have allRead := take_digits_eq_self digits wholly.2
    rw [allRead] at parsed inRange noDigits
    cases parsed
    exact ⟨_, ⟨noDigits, List.dropWhile_eq_nil_iff.mp wholly.2, rfl⟩, rfl, by omega⟩
  · rintro ⟨magnitude, ⟨nonempty, allDigits, valued⟩, rfl, inRange⟩
    have rest := List.dropWhile_eq_nil_iff.mpr allDigits
    have fits : -2 ^ 63 ≤ -(magnitude : Int) ∧ -(magnitude : Int) < 2 ^ 63 := by omega
    simp only [parseInt64, fromCharsInt64, List.head?_cons, if_true, List.drop_one,
      List.tail_cons, take_digits_eq_self digits rest, rest, if_neg nonempty, valued, if_pos fits,
      and_self, reduceCtorEq, if_false]

theorem parse_int64_plain (text : Text) (value : Int) (plain : text.head? ≠ some '-') :
    parseInt64 text = some value ↔
      ∃ magnitude : Nat, IsNumber text magnitude ∧ value = magnitude ∧ magnitude < 2 ^ 63 := by
  constructor
  · intro parsed
    simp only [parseInt64, fromCharsInt64, if_neg plain] at parsed
    split_ifs at parsed with empty noDigits _ inRange wholly
    have allRead := take_digits_eq_self text wholly.2
    rw [allRead] at parsed inRange
    cases parsed
    exact ⟨_, ⟨empty, List.dropWhile_eq_nil_iff.mp wholly.2, rfl⟩, rfl, by omega⟩
  · rintro ⟨magnitude, ⟨nonempty, allDigits, valued⟩, rfl, inRange⟩
    have rest := List.dropWhile_eq_nil_iff.mpr allDigits
    have fits : -2 ^ 63 ≤ (magnitude : Int) ∧ (magnitude : Int) < 2 ^ 63 := by omega
    simp only [parseInt64, fromCharsInt64, if_neg plain, take_digits_eq_self text rest, rest,
      if_neg nonempty, valued, if_pos fits, and_self, if_true]

theorem number_starts_plain {text : Text} {value : Nat} (isNumber : IsNumber text value) :
    text.head? ≠ some '-' := by
  intro minus
  have digit := isNumber.2.1 '-' (List.mem_of_mem_head? minus)
  revert digit
  decide

theorem non_negative_eq_some_iff (text : Text) (value : Int) :
    nonNegative (parseInt64 text) = some value ↔ IsNonNegative text value := by
  rw [nonNegative, Option.filter_eq_some_iff, decide_eq_true_eq]
  constructor
  · rintro ⟨parsed, nonneg⟩
    by_cases minus : text.head? = some '-'
    · rcases List.head?_eq_some_iff.mp minus with ⟨digits, rfl⟩
      rcases (parse_int64_minus digits value).mp parsed with ⟨magnitude, isNumber, rfl, _⟩
      have zero : magnitude = 0 := by omega
      subst zero
      exact ⟨0, rfl, by decide, .inr ⟨digits, rfl, isNumber, rfl⟩⟩
    · rcases (parse_int64_plain text value minus).mp parsed with ⟨magnitude, isNumber, rfl, inRange⟩
      exact ⟨magnitude, rfl, inRange, .inl isNumber⟩
  · rintro ⟨magnitude, rfl, inRange, isNumber | ⟨digits, rfl, isNumber, rfl⟩⟩
    · have plain := number_starts_plain isNumber
      exact ⟨(parse_int64_plain text _ plain).mpr ⟨magnitude, isNumber, rfl, inRange⟩,
        Int.natCast_nonneg magnitude⟩
    · exact ⟨(parse_int64_minus digits _).mpr ⟨0, isNumber, rfl, Nat.zero_le _⟩, Int.natCast_nonneg 0⟩

end Numbers

section Rows

/-- Either the field reads and is stored, or the row is refused. -/
theorem check_field_ok {Value : Type} {read : Option Value} {message : Text}
    {store : MarketEvent → Value → MarketEvent} {row : RowState}
    (accepted : (checkField read message store row).rowOk = true) :
    ∃ value, read = some value ∧ row.rowOk = true ∧
      checkField read message store row = { row with event := store row.event value } := by
  cases read with
  | none => cases accepted
  | some value => exact ⟨value, rfl, accepted, rfl⟩

theorem check_positive_ok {type : EventType} {row : RowState}
    (accepted : (checkPositive type row).rowOk = true) :
    row.rowOk = true ∧ (row.event.type = type → row.event.quantity ≠ 0) ∧
      checkPositive type row = row := by
  unfold checkPositive at accepted ⊢
  split_ifs at accepted ⊢ with empty
  · cases accepted
  · exact ⟨accepted, fun same zero => empty ⟨accepted, same, zero⟩, rfl⟩

/-- A row is refused exactly when it carries a message. -/
def Reported (row : RowState) : Prop := row.rowOk = row.messages.isEmpty

theorem refuse_reported (row : RowState) (message : Text) : Reported (row.refuse message) := by
  simp [Reported, RowState.refuse]

theorem check_field_reported {Value : Type} (read : Option Value) (message : Text)
    (store : MarketEvent → Value → MarketEvent) {row : RowState} (reported : Reported row) :
    Reported (checkField read message store row) := by
  cases read with
  | none => exact refuse_reported row message
  | some value => exact reported

theorem check_positive_reported (type : EventType) {row : RowState} (reported : Reported row) :
    Reported (checkPositive type row) := by
  unfold checkPositive
  split_ifs
  · exact refuse_reported row _
  · exact reported

theorem check_row_reported (timestampNs type orderId side price quantity : Text) :
    Reported (checkRow timestampNs type orderId side price quantity) := by
  apply check_positive_reported
  apply check_positive_reported
  apply check_field_reported
  apply check_field_reported
  apply check_field_reported
  apply check_field_reported
  apply check_field_reported
  apply check_field_reported
  rfl

/-- A row that passes every check spells the event it built. -/
theorem check_row_sound (timestampNs type orderId side price quantity : Text)
    (accepted : (checkRow timestampNs type orderId side price quantity).rowOk = true) :
    IsRow [timestampNs, type, orderId, side, price, quantity]
      (checkRow timestampNs type orderId side price quantity).event := by
  rcases check_positive_ok accepted with ⟨passedAdd, tradePositive, sameTrade⟩
  rcases check_positive_ok passedAdd with ⟨passedQuantity, addPositive, sameAdd⟩
  rcases check_field_ok passedQuantity with ⟨quantityValue, readQuantity, passedPrice, _⟩
  rcases check_field_ok passedPrice with ⟨priceValue, readPrice, passedSide, _⟩
  rcases check_field_ok passedSide with ⟨sideValue, readSide, passedOrderId, _⟩
  rcases check_field_ok passedOrderId with ⟨orderIdValue, readOrderId, passedType, _⟩
  rcases check_field_ok passedType with ⟨typeValue, readType, passedTimestampNs, _⟩
  rcases check_field_ok passedTimestampNs with ⟨timestampNsValue, readTimestampNs, _, _⟩
  rw [sameAdd] at tradePositive sameTrade
  rw [checkRow, sameAdd, sameTrade]
  simp only [checkQuantity, checkPrice, checkSide, checkOrderId, checkType, checkTimestampNs,
    checkField, readQuantity, readPrice, readSide, readOrderId, readType, readTimestampNs]
    at addPositive tradePositive ⊢
  exact .fields ((parse_uint64_eq_some_iff _ _).mp readTimestampNs)
    ((parse_event_type_eq_some_iff _ _).mp readType)
    ((parse_uint64_eq_some_iff _ _).mp readOrderId)
    ((parse_side_eq_some_iff _ _).mp readSide)
    ((non_negative_eq_some_iff _ _).mp readPrice)
    ((non_negative_eq_some_iff _ _).mp readQuantity)
    fun either => either.elim addPositive tradePositive

/-- Six fields that spell an event pass every check and build it. -/
theorem check_row_complete {timestampNs type orderId side price quantity : Text}
    {event : MarketEvent}
    (isRow : IsRow [timestampNs, type, orderId, side, price, quantity] event) :
    checkRow timestampNs type orderId side price quantity = { event := event } := by
  cases isRow with
  | fields isTimestampNs isType isOrderId isSide isPrice isQuantity positive =>
      have readTimestampNs := (parse_uint64_eq_some_iff _ _).mpr isTimestampNs
      have readType := (parse_event_type_eq_some_iff _ _).mpr isType
      have readOrderId := (parse_uint64_eq_some_iff _ _).mpr isOrderId
      have readSide := (parse_side_eq_some_iff _ _).mpr isSide
      have readPrice := (non_negative_eq_some_iff _ _).mpr isPrice
      have readQuantity := (non_negative_eq_some_iff _ _).mpr isQuantity
      have addPositive : ¬(event.type = .add ∧ event.quantity = 0) :=
        fun empty => positive (.inl empty.1) empty.2
      have tradePositive : ¬(event.type = .trade ∧ event.quantity = 0) :=
        fun empty => positive (.inr empty.1) empty.2
      simp only [checkRow, checkQuantity, checkPrice, checkSide, checkOrderId, checkType,
        checkTimestampNs, checkField, readTimestampNs, readType, readOrderId, readSide, readPrice,
        readQuantity, checkPositive, true_and, if_neg addPositive, if_neg tradePositive]

end Rows

section Lines

theorem parse_line_silent (sourceName : Text) (number : Nat) (line : Text) (result : ParseResult)
    (isSilent : Silent line) : parseLine sourceName number line result = result := by
  by_cases blank : trim line = []
  · simp only [parseLine, if_pos blank]
  · have header : isHeader (trimmedFields line) = true := by
      simpa [isHeader] using isSilent.resolve_left blank
    simp only [parseLine, if_neg blank, split_csv_line_eq, trimmed_fields_trim, if_pos header]

/-- A line that is not silent is checked as a row. -/
theorem parse_line_loud (sourceName : Text) (number : Nat) (line : Text) (result : ParseResult)
    (notSilent : ¬Silent line) :
    parseLine sourceName number line result =
      parseFields sourceName number (trim line) (trimmedFields line) result := by
  rcases not_or.mp notSilent with ⟨notBlank, notNames⟩
  have notHeader : ¬isHeader (trimmedFields line) = true := by simpa [isHeader] using notNames
  simp only [parseLine, if_neg notBlank, split_csv_line_eq, trimmed_fields_trim, if_neg notHeader]

/-- Neither blank nor header lines have the fields of a row. -/
theorem row_not_silent {line : Text} {event : MarketEvent}
    (isRow : IsRow (trimmedFields line) event) : ¬Silent line := by
  rintro (blank | header)
  · rw [← trimmed_fields_trim, blank] at isRow
    cases isRow
  · rw [header, headerFields] at isRow
    cases isRow with
    | fields _ isType _ _ _ _ _ =>
        revert isType
        cases event.type <;> decide

theorem parse_line_row (sourceName : Text) (number : Nat) (line : Text) (result : ParseResult)
    (event : MarketEvent) (isRow : IsRow (trimmedFields line) event) :
    parseLine sourceName number line result = ⟨result.events ++ [event], result.errors⟩ := by
  rw [parse_line_loud sourceName number line result (row_not_silent isRow)]
  generalize trimmedFields line = fields at isRow
  have spelled := isRow
  cases spelled
  simp only [parseFields, check_row_complete isRow, if_true, List.map_nil, List.append_nil]

theorem parse_line_faulty (sourceName : Text) (number : Nat) (line : Text)
    (notSilent : ¬Silent line) (noRow : ∀ event, ¬IsRow (trimmedFields line) event) :
    ∃ errors : List ParseError, errors ≠ [] ∧
      (∀ error ∈ errors, error.line = number ∧ error.row = trim line) ∧
      ∀ result, parseLine sourceName number line result =
        ⟨result.events, result.errors ++ errors⟩ := by
  simp only [parse_line_loud sourceName number line _ notSilent, parseFields]
  split
  · rename_i timestampNs type orderId side price quantity six
    have reported := check_row_reported timestampNs type orderId side price quantity
    have refused : (checkRow timestampNs type orderId side price quantity).rowOk = false := by
      by_contra accepted
      have isRow := check_row_sound timestampNs type orderId side price quantity
        (Bool.not_eq_false _ |>.mp accepted)
      exact noRow _ (six ▸ isRow)
    have messages : (checkRow timestampNs type orderId side price quantity).messages ≠ [] := by
      intro noMessages
      rw [Reported, refused, noMessages] at reported
      cases reported
    refine ⟨(checkRow timestampNs type orderId side price quantity).messages.map
      (rowError sourceName number (trim line)), ?_, ?_, ?_⟩
    · exact fun noErrors => messages (List.map_eq_nil_iff.mp noErrors)
    · intro error listed
      rcases List.mem_map.mp listed with ⟨message, _, rfl⟩
      exact ⟨rfl, rfl⟩
    · intro result
      simp only [refused, Bool.false_eq_true, if_false]
  · refine ⟨[rowError sourceName number (trim line)
      (wrongFieldCount (trimmedFields line).length)], List.cons_ne_nil _ _, ?_, fun _ => rfl⟩
    intro error listed
    rw [List.mem_singleton.mp listed]
    exact ⟨rfl, rfl⟩

/-- The loop body appends what its line contributes. -/
theorem parse_line_contributes (sourceName : Text) (number : Nat) (line : Text) :
    ∃ events errors, Contributes number line events errors ∧
      ∀ result, parseLine sourceName number line result =
        ⟨result.events ++ events, result.errors ++ errors⟩ := by
  by_cases isSilent : Silent line
  · refine ⟨[], [], .silent isSilent, ?_⟩
    intro result
    simp only [parse_line_silent sourceName number line result isSilent, List.append_nil]
  by_cases spelled : ∃ event, IsRow (trimmedFields line) event
  · rcases spelled with ⟨event, isRow⟩
    refine ⟨[event], [], .row isSilent event isRow, ?_⟩
    intro result
    rw [parse_line_row sourceName number line result event isRow, List.append_nil]
  · have noRow := not_exists.mp spelled
    rcases parse_line_faulty sourceName number line isSilent noRow with
      ⟨errors, nonempty, located, parsed⟩
    refine ⟨[], errors, .faulty isSilent noRow errors nonempty located, ?_⟩
    intro result
    rw [parsed, List.append_nil]

theorem getline_line (line rest : Text) (noBreak : '\n' ∉ line) :
    getline (line ++ '\n' :: rest) = some (line, rest) := by
  have kept : ∀ letter ∈ line, decide (letter ≠ '\n') = true := by
    intro letter listed
    exact decide_eq_true fun same => noBreak (same ▸ listed)
  rw [getline, if_neg (by simp), List.takeWhile_append_of_pos kept, List.dropWhile_append_of_pos kept]
  simp

theorem getline_last (line : Text) (noBreak : '\n' ∉ line) (nonempty : line ≠ []) :
    getline line = some (line, []) := by
  have kept : ∀ letter ∈ line, decide (letter ≠ '\n') = true := by
    intro letter listed
    exact decide_eq_true fun same => noBreak (same ▸ listed)
  rw [getline, if_neg nonempty, List.takeWhile_eq_self_iff.mpr kept,
    List.dropWhile_eq_nil_iff.mpr kept]
  rfl

theorem parse_lines_nil (sourceName : Text) (number : Nat) (result : ParseResult) :
    parseLines sourceName [] number result = result := by
  rw [parseLines]
  rfl

theorem parse_lines_line (sourceName line rest : Text) (number : Nat) (result : ParseResult)
    (noBreak : '\n' ∉ line) :
    parseLines sourceName (line ++ '\n' :: rest) number result =
      parseLines sourceName rest (number + 1) (parseLine sourceName (number + 1) line result) := by
  rw [parseLines, getline_line line rest noBreak]

theorem parse_lines_last (sourceName line : Text) (number : Nat) (result : ParseResult)
    (noBreak : '\n' ∉ line) (nonempty : line ≠ []) :
    parseLines sourceName line number result =
      parseLine sourceName (number + 1) line result := by
  rw [parseLines, getline_last line noBreak nonempty]
  exact parse_lines_nil sourceName _ _

/-- The line loop reads the lines between newlines, whatever it read before. -/
theorem parse_lines_reads (sourceName : Text) (lines : List Text) (nonempty : lines ≠ [])
    (noBreaks : ∀ line ∈ lines, '\n' ∉ line) (number : Nat) :
    ∃ events errors, Reads (number + 1) lines events errors ∧
      ∀ result, parseLines sourceName (['\n'].intercalate lines) number result =
        ⟨result.events ++ events, result.errors ++ errors⟩ := by
  induction lines generalizing number with
  | nil => exact absurd rfl nonempty
  | cons line rest ih =>
      have noBreak := noBreaks line List.mem_cons_self
      rcases parse_line_contributes sourceName (number + 1) line with
        ⟨events, errors, contributes, parsed⟩
      cases rest with
      | nil =>
          by_cases empty : line = []
          · subst empty
            refine ⟨_, _, .line (.silent (.inl rfl)) (.done _), ?_⟩
            intro result
            simpa using parse_lines_nil sourceName number result
          · refine ⟨_, _, .line contributes (.done _), ?_⟩
            intro result
            rw [List.intercalate_singleton, parse_lines_last _ _ _ _ noBreak empty, parsed]
            simp only [List.append_nil]
      | cons next others =>
          obtain ⟨laterEvents, laterErrors, later, parsedLater⟩ :=
            ih (List.cons_ne_nil _ _) (fun other listed =>
              noBreaks other (List.mem_cons_of_mem _ listed)) (number + 1)
          refine ⟨_, _, .line contributes later, ?_⟩
          intro result
          rw [List.intercalate_cons_cons, List.append_assoc, List.singleton_append,
            parse_lines_line _ _ _ _ _ noBreak, parsed, parsedLater]
          simp only [List.append_assoc]

/-- No line is faulty exactly when no error was reported. -/
theorem reads_errors_nil_iff {number : Nat} {lines : List Text} {events : List MarketEvent}
    {errors : List ParseError} (reads : Reads number lines events errors) :
    errors = [] ↔ ∀ line ∈ lines, Silent line ∨ ∃ event, IsRow (trimmedFields line) event := by
  induction reads with
  | done number => simp
  | line contributes later ih =>
      rw [List.append_eq_nil_iff, ih, List.forall_mem_cons]
      apply and_congr_left
      intro _
      cases contributes with
      | silent isSilent => simp [isSilent]
      | row notSilent event isRow => exact iff_of_true rfl (.inr ⟨event, isRow⟩)
      | faulty notSilent noRow _ nonempty located =>
          apply iff_of_false nonempty
          rintro (isSilent | ⟨event, isRow⟩)
          · exact notSilent isSilent
          · exact noRow event isRow

/-- The parser reads every text line by line in the row grammar, and it is `ok`
exactly when no line is faulty. -/
theorem parse_stream_reads_row_grammar (input sourceName : Text) :
    Reads 1 (input.splitOn '\n') (parseStream input sourceName).events
        (parseStream input sourceName).errors ∧
      ((parseStream input sourceName).ok = true ↔
        ∀ line ∈ input.splitOn '\n', Silent line ∨ ∃ event, IsRow (trimmedFields line) event) := by
  have noBreaks := split_pieces_free '\n' input
  rcases parse_lines_reads sourceName (input.splitOn '\n') (List.splitOn_ne_nil _ _) noBreaks 0 with
    ⟨events, errors, reads, parsed⟩
  rw [List.intercalate_splitOn] at parsed
  have whole : parseStream input sourceName = ⟨events, errors⟩ := parsed {}
  rw [whole]
  exact ⟨reads, List.isEmpty_iff.trans (reads_errors_nil_iff reads)⟩

end Lines

end TickForge.CsvGrammar
