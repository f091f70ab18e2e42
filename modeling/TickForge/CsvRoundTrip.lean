import TickForge.CsvGrammar

/-!
# Feeds written and read back

The Python writers emit a header and one row per event through `csv.writer`.
The parser reads such a text back into the events, also when blank lines,
further headers and spaces or tabs around fields have been put in.
-/

namespace TickForge.CsvRoundTrip

open DelimitedText MarketEventModel CsvParserModel CsvGrammar

set_option autoImplicit false

section Writers

/-- Python's `str` of an integer. -/
def pyInt : Int → Text
  | .ofNat magnitude => Nat.toDigits 10 magnitude
  | .negSucc magnitude => '-' :: Nat.toDigits 10 (magnitude + 1)

/-- The columns of one event row. -/
def eventRow (event : MarketEvent) : List Text :=
  [Nat.toDigits 10 event.timestampNs, eventTypeToString event.type,
    Nat.toDigits 10 event.orderId, sideToString event.side, pyInt event.price,
    pyInt event.quantity]

/-- `csv.QUOTE_MINIMAL`: a field is quoted where it holds the delimiter, the
quote character or a line break. -/
def writeField (field : Text) : Text :=
  if field.any fun letter => letter = ',' || letter = '"' || letter = '\r' || letter = '\n' then
    '"' :: field.flatMap (fun letter => if letter = '"' then ['"', '"'] else [letter]) ++ ['"']
  else field

inductive LineEnd where
  | crlf
  | lf
  deriving DecidableEq, Repr

/-- What a line shows of its end once the newline is cut off. -/
def LineEnd.carriage : LineEnd → Text
  | .crlf => ['\r']
  | .lf => []

def LineEnd.text (lineEnd : LineEnd) : Text := lineEnd.carriage ++ ['\n']

def writeRow (lineEnd : LineEnd) (fields : List Text) : Text :=
  [','].intercalate (fields.map writeField) ++ lineEnd.text

def writeFeed (lineEnd : LineEnd) (events : List MarketEvent) : Text :=
  writeRow lineEnd headerFields ++ events.flatMap fun event => writeRow lineEnd (eventRow event)

/-- The field ranges of a feed. -/
structure Writable (event : MarketEvent) : Prop where
  timestampNs : event.timestampNs < 2 ^ 64
  orderId : event.orderId < 2 ^ 64
  price : 0 ≤ event.price ∧ event.price < 2 ^ 63
  quantity : 0 ≤ event.quantity ∧ event.quantity < 2 ^ 63
  positive : event.type = .add ∨ event.type = .trade → 1 ≤ event.quantity

end Writers

section Decoration

/-- Spaces and tabs only. -/
structure Blanks where
  text : Text
  only : ∀ letter ∈ text, letter = ' ' ∨ letter = '\t'

structure Padding where
  before : Blanks
  after : Blanks

def noBlanks : Blanks := ⟨[], by simp⟩

/-- Each column gets its own padding. -/
def padFields : (Nat → Padding) → List Text → List Text
  | _, [] => []
  | padding, field :: rest =>
      ((padding 0).before.text ++ field ++ (padding 0).after.text) ::
        padFields (fun column => padding (column + 1)) rest

inductive FeedLine where
  | blank (spaces : Blanks)
  | header (padding : Nat → Padding)
  | row (event : MarketEvent) (padding : Nat → Padding)

def FeedLine.text : FeedLine → Text
  | .blank spaces => spaces.text
  | .header padding => [','].intercalate (padFields padding headerFields)
  | .row event padding => [','].intercalate (padFields padding (eventRow event))

def FeedLine.carried : FeedLine → List MarketEvent
  | .row event _ => [event]
  | _ => []

def feedText (lines : List (FeedLine × LineEnd)) : Text :=
  lines.flatMap fun line => line.1.text ++ line.2.text

def carriedEvents (lines : List (FeedLine × LineEnd)) : List MarketEvent :=
  lines.flatMap fun line => line.1.carried

end Decoration

section Fields

/-- Neither trimmed, nor cut, nor quoted. -/
def Plain (field : Text) : Prop :=
  ∀ letter ∈ field, isTrimmed letter = false ∧ letter ≠ ',' ∧ letter ≠ '"'

theorem plain_of_all (field : Text)
    (checked : field.all (fun letter => !isTrimmed letter && letter != ',' && letter != '"') = true) :
    Plain field := by
  intro letter listed
  have plain := List.all_eq_true.mp checked letter listed
  simpa [and_assoc] using plain

theorem digit_plain (letter : Char) (digit : letter.isDigit = true) :
    isTrimmed letter = false ∧ letter ≠ ',' ∧ letter ≠ '"' := by
  have apart : ∀ other : Char, other.isDigit = false → letter ≠ other := by
    intro other notDigit same
    rw [same, notDigit] at digit
    cases digit
  have notTrimmed : isTrimmed letter = false := by
    simp [isTrimmed, apart ' ' (by decide), apart '\t' (by decide), apart '\r' (by decide),
      apart '\n' (by decide)]
  exact ⟨notTrimmed, apart ',' (by decide), apart '"' (by decide)⟩

theorem to_digits_plain (value : Nat) : Plain (Nat.toDigits 10 value) := by
  intro letter listed
  exact digit_plain letter (Nat.isDigit_of_mem_toDigits (by decide) (by decide) listed)

theorem py_int_plain (value : Int) : Plain (pyInt value) := by
  cases value with
  | ofNat magnitude => exact to_digits_plain magnitude
  | negSucc magnitude =>
      intro letter listed
      rcases List.mem_cons.mp listed with minus | digit
      · subst minus
        decide
      · exact to_digits_plain _ letter digit

theorem event_row_plain (event : MarketEvent) : ∀ field ∈ eventRow event, Plain field := by
  intro field listed
  simp only [eventRow, List.mem_cons, List.not_mem_nil, or_false] at listed
  rcases listed with rfl | rfl | rfl | rfl | rfl | rfl
  · exact to_digits_plain _
  · apply plain_of_all
    cases event.type <;> decide
  · exact to_digits_plain _
  · apply plain_of_all
    cases event.side <;> decide
  · exact py_int_plain _
  · exact py_int_plain _

theorem header_fields_plain : ∀ field ∈ headerFields, Plain field := by
  intro field listed
  apply plain_of_all
  have checked : (headerFields.all fun name =>
      name.all fun letter => !isTrimmed letter && letter != ',' && letter != '"') = true := by
    decide
  exact List.all_eq_true.mp checked field listed

theorem write_field_plain {field : Text} (plain : Plain field) : writeField field = field := by
  apply if_neg
  intro special
  obtain ⟨letter, listed, marked⟩ := List.any_eq_true.mp special
  obtain ⟨notTrimmed, notComma, notQuote⟩ := plain letter listed
  simp [isTrimmed] at notTrimmed
  simp [notComma, notQuote, notTrimmed] at marked

theorem avoids_to_digits {letter : Char} (notDigit : letter.isDigit = false) (value : Nat) :
    letter ∉ Nat.toDigits 10 value := by
  intro listed
  have digit := Nat.isDigit_of_mem_toDigits (by decide) (by decide) listed
  rw [notDigit] at digit
  exact Bool.false_ne_true digit

theorem is_number_to_digits (value : Nat) : IsNumber (Nat.toDigits 10 value) value := by
  have digits : ∀ letter ∈ Nat.toDigits 10 value, letter.isDigit = true := by
    intro letter listed
    exact Nat.isDigit_of_mem_toDigits (by decide) (by decide) listed
  exact ⟨Nat.toDigits_ne_nil, digits, Nat.ofDigitChars_ten_toDigits⟩

theorem is_non_negative_py_int (value : Int) (range : 0 ≤ value ∧ value < 2 ^ 63) :
    IsNonNegative (pyInt value) value := by
  cases value with
  | ofNat magnitude =>
      have small : (magnitude : Int) < 2 ^ 63 := range.2
      exact ⟨magnitude, rfl, by omega, .inl (is_number_to_digits magnitude)⟩
  | negSucc magnitude => exact absurd range.1 (by omega)

/-- A written row spells its event. -/
theorem event_row_is_row {event : MarketEvent} (writable : Writable event) :
    IsRow (eventRow event) event := by
  refine .fields ⟨is_number_to_digits _, writable.timestampNs⟩ rfl
    ⟨is_number_to_digits _, writable.orderId⟩ rfl (is_non_negative_py_int _ writable.price)
    (is_non_negative_py_int _ writable.quantity) ?_
  intro either
  have positive := writable.positive either
  omega

theorem number_eq_of_digits {magnitude value : Nat}
    (isNumber : IsNumber (Nat.toDigits 10 magnitude) value) : value = magnitude := by
  rw [← isNumber.2.2, Nat.ofDigitChars_ten_toDigits]

/-- Only numbers in range are spelled by their own digits. -/
theorem non_negative_py_int_range {value read : Int} (isRead : IsNonNegative (pyInt value) read) :
    read = value ∧ 0 ≤ value ∧ value < 2 ^ 63 := by
  rcases isRead with ⟨magnitude, rfl, small, isNumber | ⟨digits, spelled, isZero, rfl⟩⟩
  · cases value with
    | ofNat written =>
        have same := number_eq_of_digits isNumber
        subst same
        exact ⟨rfl, Int.natCast_nonneg _, Int.ofNat_lt.mpr small⟩
    | negSucc written => exact absurd (isNumber.2.1 '-' List.mem_cons_self) (by decide)
  · cases value with
    | ofNat written =>
        have listed : '-' ∈ Nat.toDigits 10 written := by
          rw [show Nat.toDigits 10 written = '-' :: digits from spelled]
          exact List.mem_cons_self
        exact absurd listed (avoids_to_digits (by decide) written)
    | negSucc written =>
        have same : Nat.toDigits 10 (written + 1) = digits := (List.cons.inj spelled).2
        rw [← same] at isZero
        have zero := number_eq_of_digits isZero
        omega

/-- Only a writable event's row is a row. -/
theorem writable_of_row {event other : MarketEvent} (isRow : IsRow (eventRow event) other) :
    Writable event := by
  unfold eventRow at isRow
  cases isRow with
  | fields isTimestampNs isType isOrderId isSide isPrice isQuantity positive =>
      have sameTime := number_eq_of_digits isTimestampNs.1
      have sameId := number_eq_of_digits isOrderId.1
      have price := non_negative_py_int_range isPrice
      have quantity := non_negative_py_int_range isQuantity
      have sameType : event.type = other.type := by
        have read := (parse_event_type_eq_some_iff _ _).mpr isType
        rw [(parse_event_type_eq_some_iff _ _).mpr rfl] at read
        exact Option.some.inj read
      refine ⟨sameTime ▸ isTimestampNs.2, sameId ▸ isOrderId.2, price.2, quantity.2, ?_⟩
      intro either
      rw [sameType] at either
      have nonzero := positive either
      omega

end Fields

section Lines

theorem blanks_trimmed (spaces : Blanks) : ∀ letter ∈ spaces.text, isTrimmed letter = true := by
  intro letter listed
  rcases spaces.only letter listed with rfl | rfl
  · decide
  · decide

theorem blanks_avoid (spaces : Blanks) {other : Char} (notSpace : other ≠ ' ')
    (notTab : other ≠ '\t') : other ∉ spaces.text := by
  intro listed
  exact (spaces.only other listed).elim notSpace notTab

/-- Trimming takes each field's padding off. -/
theorem trim_pad_fields (padding : Nat → Padding) (fields : List Text)
    (plain : ∀ field ∈ fields, Plain field) : (padFields padding fields).map trim = fields := by
  induction fields generalizing padding with
  | nil => rfl
  | cons field rest ih =>
      rw [padFields, List.map_cons, ih _ fun other listed => plain other (List.mem_cons_of_mem _ listed)]
      congr 1
      exact trimmed_padded isTrimmed _ _ _ (blanks_trimmed _)
        (fun letter listed => (plain field List.mem_cons_self letter listed).1) (blanks_trimmed _)

theorem pad_fields_avoid (other : Char) (notSpace : other ≠ ' ') (notTab : other ≠ '\t')
    (padding : Nat → Padding) (fields : List Text) (absent : ∀ field ∈ fields, other ∉ field) :
    ∀ field ∈ padFields padding fields, other ∉ field := by
  induction fields generalizing padding with
  | nil => simp [padFields]
  | cons field rest ih =>
      rw [padFields, List.forall_mem_cons]
      constructor
      · have inside := absent field List.mem_cons_self
        simp [blanks_avoid _ notSpace notTab, inside]
      · apply ih
        intro another listed
        exact absent another (List.mem_cons_of_mem _ listed)

theorem carriage_trimmed (lineEnd : LineEnd) :
    ∀ letter ∈ lineEnd.carriage, isTrimmed letter = true := by
  have checked : lineEnd.carriage.all isTrimmed = true := by
    cases lineEnd <;> decide
  exact List.all_eq_true.mp checked

theorem carriage_no_break (lineEnd : LineEnd) : '\n' ∉ lineEnd.carriage := by
  cases lineEnd <;> decide

theorem padded_line_fields (padding : Nat → Padding) (fields : List Text) (lineEnd : LineEnd)
    (plain : ∀ field ∈ fields, Plain field) (nonempty : fields ≠ []) :
    trimmedFields ([','].intercalate (padFields padding fields) ++ lineEnd.carriage) = fields := by
  have noComma : ∀ field ∈ padFields padding fields, ',' ∉ field := by
    apply pad_fields_avoid ',' (by decide) (by decide) padding fields
    intro field listed comma
    exact (plain field listed ',' comma).2.1 rfl
  have padded : padFields padding fields ≠ [] := by
    cases fields with
    | nil => exact absurd rfl nonempty
    | cons field rest => exact List.cons_ne_nil _ _
  calc
    trimmedFields ([','].intercalate (padFields padding fields) ++ lineEnd.carriage) =
        trimmedFields (trim ([','].intercalate (padFields padding fields))) := by
      rw [← trimmed_fields_trim, trim, trimmed_append_right _ _ _ (carriage_trimmed lineEnd), trim]
    _ = (padFields padding fields).map trim := by
      rw [trimmed_fields_trim, trimmedFields, List.splitOn_intercalate ',' noComma padded]
    _ = fields := trim_pad_fields padding fields plain

/-- No line of a feed is broken by its own text. -/
theorem feed_line_no_break (line : FeedLine) : '\n' ∉ line.text := by
  have joined : ∀ (padding : Nat → Padding) (fields : List Text),
      (∀ field ∈ fields, Plain field) → '\n' ∉ [','].intercalate (padFields padding fields) := by
    intro padding fields plain
    apply joined_avoids ',' '\n' (by decide)
    apply pad_fields_avoid '\n' (by decide) (by decide)
    intro field listed broken
    have trimmedBreak := (plain field listed '\n' broken).1
    revert trimmedBreak
    decide
  cases line with
  | blank spaces => exact blanks_avoid spaces (by decide) (by decide)
  | header padding => exact joined padding _ header_fields_plain
  | row event padding => exact joined padding _ (event_row_plain event)

/-- One line of a feed adds the event it carries and no error. -/
theorem parse_feed_line (sourceName : Text) (number : Nat) (line : FeedLine) (lineEnd : LineEnd)
    (result : ParseResult) (writable : ∀ event ∈ line.carried, Writable event) :
    parseLine sourceName number (line.text ++ lineEnd.carriage) result =
      ⟨result.events ++ line.carried, result.errors⟩ := by
  cases line with
  | blank spaces =>
      have allBlank : trim (spaces.text ++ lineEnd.carriage) = [] := by
        rw [trim, trimmed_append_right _ _ _ (carriage_trimmed lineEnd)]
        exact (trimmed_eq_nil_iff _ _).mpr (blanks_trimmed spaces)
      rw [FeedLine.text, parse_line_silent _ _ _ _ (.inl allBlank)]
      simp only [FeedLine.carried, List.append_nil]
  | header padding =>
      have names := padded_line_fields padding headerFields lineEnd header_fields_plain (by decide)
      rw [FeedLine.text, parse_line_silent _ _ _ _ (.inr names)]
      simp only [FeedLine.carried, List.append_nil]
  | row event padding =>
      have columns := padded_line_fields padding (eventRow event) lineEnd (event_row_plain event)
        (List.cons_ne_nil _ _)
      have isRow := event_row_is_row (writable event List.mem_cons_self)
      rw [← columns] at isRow
      exact parse_line_row sourceName number _ result event isRow

/-- A row out of range adds errors instead. -/
theorem parse_unwritable_row (sourceName : Text) (number : Nat) (event : MarketEvent)
    (padding : Nat → Padding) (lineEnd : LineEnd) (outOfRange : ¬Writable event) :
    ∃ errors : List ParseError, errors ≠ [] ∧ ∀ result,
      parseLine sourceName number ((FeedLine.row event padding).text ++ lineEnd.carriage) result =
        ⟨result.events, result.errors ++ errors⟩ := by
  have columns := padded_line_fields padding (eventRow event) lineEnd (event_row_plain event)
    (List.cons_ne_nil _ _)
  have noRow : ∀ other, ¬IsRow (trimmedFields
      ([','].intercalate (padFields padding (eventRow event)) ++ lineEnd.carriage)) other := by
    intro other isRow
    rw [columns] at isRow
    exact outOfRange (writable_of_row isRow)
  have notSilent : ¬Silent
      ([','].intercalate (padFields padding (eventRow event)) ++ lineEnd.carriage) := by
    rintro (blank | header)
    · rw [← trimmed_fields_trim, blank] at columns
      exact absurd (congrArg List.length columns) (by simp [trimmedFields, eventRow])
    · rw [columns] at header
      have first : Nat.toDigits 10 event.timestampNs = "timestamp_ns".toList :=
        (List.cons.inj header).1
      have listed : 't' ∈ Nat.toDigits 10 event.timestampNs := by
        rw [first]
        decide
      exact absurd listed (avoids_to_digits (by decide) _)
  rcases parse_line_faulty sourceName number _ notSilent noRow with ⟨errors, someError, _, parsed⟩
  exact ⟨errors, someError, parsed⟩

end Lines

section Feeds

theorem parse_feed_lines (sourceName : Text) (lines : List (FeedLine × LineEnd))
    (writable : ∀ event ∈ carriedEvents lines, Writable event) (number : Nat)
    (result : ParseResult) :
    parseLines sourceName (feedText lines) number result =
      ⟨result.events ++ carriedEvents lines, result.errors⟩ := by
  induction lines generalizing number result with
  | nil => simp [feedText, carriedEvents, parse_lines_nil]
  | cons line rest ih =>
      have noBreak : '\n' ∉ line.1.text ++ line.2.carriage := by
        rw [List.mem_append, not_or]
        exact ⟨feed_line_no_break line.1, carriage_no_break line.2⟩
      have first : ∀ event ∈ line.1.carried, Writable event := by
        intro event carried
        exact writable event (List.mem_append_left _ carried)
      have others : ∀ event ∈ carriedEvents rest, Writable event := by
        intro event carried
        exact writable event (List.mem_append_right _ carried)
      have split : feedText (line :: rest) =
          (line.1.text ++ line.2.carriage) ++ '\n' :: feedText rest := by
        simp [feedText, LineEnd.text]
      rw [split, parse_lines_line _ _ _ _ _ noBreak,
        parse_feed_line _ _ line.1 line.2 _ first, ih others]
      simp only [carriedEvents, List.flatMap_cons, List.append_assoc]

def bare : Nat → Padding := fun _ => ⟨noBlanks, noBlanks⟩

theorem pad_fields_bare (fields : List Text) : padFields bare fields = fields := by
  induction fields with
  | nil => rfl
  | cons field rest ih =>
      have column : ([] : Text) ++ field ++ [] = field := by rw [List.nil_append, List.append_nil]
      exact congrArg₂ List.cons column ih

theorem write_row_plain (lineEnd : LineEnd) (fields : List Text)
    (plain : ∀ field ∈ fields, Plain field) :
    writeRow lineEnd fields = [','].intercalate fields ++ lineEnd.text := by
  have unquoted : fields.map writeField = fields := by
    conv_rhs => rw [← List.map_id fields]
    exact List.map_congr_left fun field listed => write_field_plain (plain field listed)
  rw [writeRow, unquoted]

/-- The written text is a feed without decoration. -/
theorem write_feed_eq (lineEnd : LineEnd) (events : List MarketEvent) :
    writeFeed lineEnd events =
      feedText ((.header bare, lineEnd) :: events.map fun event => (.row event bare, lineEnd)) := by
  simp only [writeFeed, feedText, List.flatMap_cons, List.flatMap_map, FeedLine.text,
    pad_fields_bare, write_row_plain lineEnd _ header_fields_plain,
    write_row_plain lineEnd _ (event_row_plain _)]

theorem parse_feed (lines : List (FeedLine × LineEnd))
    (writable : ∀ event ∈ carriedEvents lines, Writable event) (sourceName : Text) :
    parseStream (feedText lines) sourceName = ⟨carriedEvents lines, []⟩ :=
  parse_feed_lines sourceName lines writable 0 {}

theorem parse_write_feed (lineEnd : LineEnd) (events : List MarketEvent)
    (writable : ∀ event ∈ events, Writable event) (sourceName : Text) :
    parseStream (writeFeed lineEnd events) sourceName = ⟨events, []⟩ := by
  have carried : carriedEvents ((.header bare, lineEnd) ::
      events.map fun event => (.row event bare, lineEnd)) = events := by
    simp [carriedEvents, FeedLine.carried, List.flatMap_map]
  rw [write_feed_eq, parse_feed _ (carried.symm ▸ writable), carried]

/-- Reading a feed leaves no new error exactly when its rows are in range. -/
theorem parse_feed_lines_ok_iff (sourceName : Text) (lines : List (FeedLine × LineEnd))
    (number : Nat) (result : ParseResult) :
    (parseLines sourceName (feedText lines) number result).errors = [] ↔
      result.errors = [] ∧ ∀ event ∈ carriedEvents lines, Writable event := by
  induction lines generalizing number result with
  | nil => simp [feedText, carriedEvents, parse_lines_nil]
  | cons line rest ih =>
      rcases line with ⟨line, lineEnd⟩
      have noBreak : '\n' ∉ line.text ++ lineEnd.carriage := by
        rw [List.mem_append, not_or]
        exact ⟨feed_line_no_break line, carriage_no_break lineEnd⟩
      have split : feedText ((line, lineEnd) :: rest) =
          (line.text ++ lineEnd.carriage) ++ '\n' :: feedText rest := by
        simp [feedText, LineEnd.text]
      have carried : carriedEvents ((line, lineEnd) :: rest) = line.carried ++ carriedEvents rest :=
        List.flatMap_cons
      rw [split, parse_lines_line _ _ _ _ _ noBreak, ih, carried, List.forall_mem_append]
      by_cases writable : ∀ event ∈ line.carried, Writable event
      · rw [parse_feed_line _ _ line lineEnd _ writable]
        exact and_congr_right fun _ => (and_iff_right writable).symm
      · cases line with
        | blank spaces => exact absurd (fun _ listed => by cases listed) writable
        | header padding => exact absurd (fun _ listed => by cases listed) writable
        | row event padding =>
            have outOfRange : ¬Writable event := by
              intro inRange
              exact writable fun other listed => by rwa [List.mem_singleton.mp listed]
            rcases parse_unwritable_row sourceName (number + 1) event padding lineEnd outOfRange with
              ⟨errors, someError, parsed⟩
            rw [parsed]
            simp [someError, writable]

/-- A written feed parses without errors only where every event is in range. -/
theorem parse_write_feed_ok_iff (lineEnd : LineEnd) (events : List MarketEvent) (sourceName : Text) :
    (parseStream (writeFeed lineEnd events) sourceName).errors = [] ↔
      ∀ event ∈ events, Writable event := by
  have carried : carriedEvents ((.header bare, lineEnd) ::
      events.map fun event => (.row event bare, lineEnd)) = events := by
    simp [carriedEvents, FeedLine.carried, List.flatMap_map]
  rw [write_feed_eq]
  have read := parse_feed_lines_ok_iff sourceName ((.header bare, lineEnd) ::
    events.map fun event => (.row event bare, lineEnd)) 0 {}
  rw [carried] at read
  exact read.trans (and_iff_right rfl)

/-- A written feed parses back into its events without errors, and so does every
text that differs from it by blank lines, header lines and padding. -/
theorem written_feed_parses_back (events : List MarketEvent)
    (writable : ∀ event ∈ events, Writable event) (sourceName : Text) :
    (∀ lineEnd, parseStream (writeFeed lineEnd events) sourceName = ⟨events, []⟩) ∧
      ∀ lines, carriedEvents lines = events →
        parseStream (feedText lines) sourceName = ⟨events, []⟩ := by
  constructor
  · intro lineEnd
    exact parse_write_feed lineEnd events writable sourceName
  · intro lines carried
    rw [parse_feed lines (carried.symm ▸ writable), carried]

theorem entered_and_filled_feed_parses_back :
    let entered : MarketEvent :=
      ⟨1000000000, .add, 18446744073709551615, .buy, 10000, 9223372036854775807⟩
    let filled : MarketEvent := ⟨1000000010, .trade, 18446744073709551615, .buy, 10000, 3⟩
    (∀ lineEnd, parseStream (writeFeed lineEnd [entered, filled]) "feed.csv".toList =
        ⟨[entered, filled], []⟩) ∧
      ∀ lines, carriedEvents lines = [entered, filled] →
        parseStream (feedText lines) "feed.csv".toList = ⟨[entered, filled], []⟩ := by
  apply written_feed_parses_back
  intro event listed
  rcases List.mem_pair.mp listed with rfl | rfl
  · exact ⟨by decide, by decide, by decide, by decide, by decide⟩
  · exact ⟨by decide, by decide, by decide, by decide, by decide⟩

end Feeds

end TickForge.CsvRoundTrip
