import TickForge.DelimitedText
import TickForge.MarketEventModel
import Mathlib.Algebra.Ring.Int.Defs
import Mathlib.Algebra.Ring.Nat

/-!
# The CSV parser

A transcription of `csv_parser.cpp`: trimming, the splitting loop, the bounded
decimal readers, the field checks of one row in their order and the line loop.
`std::getline` and `std::from_chars` follow their standard descriptions.
-/

namespace TickForge.CsvParserModel

open DelimitedText MarketEventModel

set_option autoImplicit false

section Fields

def isTrimmed (letter : Char) : Bool :=
  letter = ' ' || letter = '\t' || letter = '\r' || letter = '\n'

def trim (value : Text) : Text := trimmed isTrimmed value

/-- `line.find(',', start)`; `none` is `npos`. -/
def findComma (line : Text) (start : Nat) : Option Nat :=
  if ',' ∈ line.drop start then some (start + (line.drop start).idxOf ',') else none

theorem find_comma_bounds {line : Text} {start comma : Nat}
    (found : findComma line start = some comma) : start ≤ comma ∧ comma < line.length := by
  unfold findComma at found
  split_ifs at found with listed
  cases found
  have inside := List.idxOf_lt_length_of_mem listed
  rw [List.length_drop] at inside
  omega

/-- The loop of `split_csv_line`, entered with `start` and the fields so far. -/
def splitFrom (line : Text) (start : Nat) (fields : List Text) : List Text :=
  if start ≤ line.length then
    match _found : findComma line start with
    | none => fields ++ [trim (line.drop start)]
    | some comma =>
        splitFrom line (comma + 1) (fields ++ [trim ((line.drop start).take (comma - start))])
  else fields
termination_by line.length + 1 - start
decreasing_by
  have bounds := find_comma_bounds _found
  omega

def splitCsvLine (line : Text) : List Text := splitFrom line 0 []

end Fields

section Numbers

/-- `std::errc` as far as `std::from_chars` reports it. -/
inductive Errc where
  | none
  | invalidArgument
  | resultOutOfRange
  deriving DecidableEq, Repr

/-- What `std::from_chars` returns and stores: the unread rest at `ptr`, the code
and the value written to `out`. -/
structure FromChars (Value : Type) where
  rest : Text
  code : Errc
  out : Option Value
  deriving DecidableEq, Repr

/-- No sign is read for an unsigned target. -/
def fromCharsUint64 (text : Text) : FromChars Nat :=
  let digits := text.takeWhile Char.isDigit
  let rest := text.dropWhile Char.isDigit
  if digits = [] then ⟨text, .invalidArgument, none⟩
  else
    let value := Nat.ofDigitChars 10 digits 0
    if value < 2 ^ 64 then ⟨rest, .none, some value⟩ else ⟨rest, .resultOutOfRange, none⟩

/-- A minus sign may lead for a signed target, a plus sign never does. -/
def fromCharsInt64 (text : Text) : FromChars Int :=
  let negative := text.head? = some '-'
  let unsigned := if negative then text.drop 1 else text
  let digits := unsigned.takeWhile Char.isDigit
  let rest := unsigned.dropWhile Char.isDigit
  if digits = [] then ⟨text, .invalidArgument, none⟩
  else
    let magnitude : Int := Nat.ofDigitChars 10 digits 0
    let value := if negative then -magnitude else magnitude
    if -2 ^ 63 ≤ value ∧ value < 2 ^ 63 then ⟨rest, .none, some value⟩
    else ⟨rest, .resultOutOfRange, none⟩

def parseUint64 (value : Text) : Option Nat :=
  if value = [] then none
  else
    let read := fromCharsUint64 value
    if read.code = .none ∧ read.rest = [] then read.out else none

def parseInt64 (value : Text) : Option Int :=
  if value = [] then none
  else
    let read := fromCharsInt64 value
    if read.code = .none ∧ read.rest = [] then read.out else none

end Numbers

section Rows

def headerFields : List Text :=
  ["timestamp_ns".toList, "type".toList, "order_id".toList, "side".toList, "price".toList,
    "quantity".toList]

def isHeader (fields : List Text) : Bool := fields = headerFields

def withSource (sourceName message : Text) : Text := sourceName ++ ": ".toList ++ message

structure ParseError where
  line : Nat
  message : Text
  row : Text
  deriving DecidableEq, Repr

structure ParseResult where
  events : List MarketEvent := []
  errors : List ParseError := []
  deriving DecidableEq, Repr

def ParseResult.ok (result : ParseResult) : Bool := result.errors.isEmpty

/-- The locals of the row loop: the event under construction, `row_ok` and the
messages handed to `add_error` so far. -/
structure RowState where
  event : MarketEvent := {}
  rowOk : Bool := true
  messages : List Text := []
  deriving DecidableEq, Repr

def RowState.refuse (row : RowState) (message : Text) : RowState :=
  { row with rowOk := false, messages := row.messages ++ [message] }

/-- One field check: a field that does not read adds its message, one that does
is stored in the event. -/
def checkField {Value : Type} (read : Option Value) (message : Text)
    (store : MarketEvent → Value → MarketEvent) (row : RowState) : RowState :=
  match read with
  | none => row.refuse message
  | some value => { row with event := store row.event value }

def checkTimestampNs (field : Text) : RowState → RowState :=
  checkField (parseUint64 field) "invalid timestamp_ns".toList
    fun event value => { event with timestampNs := value }

def checkType (field : Text) : RowState → RowState :=
  checkField (parseEventType field) ("unknown event type '".toList ++ field ++ "'".toList)
    fun event value => { event with type := value }

def checkOrderId (field : Text) : RowState → RowState :=
  checkField (parseUint64 field) "invalid order_id".toList
    fun event value => { event with orderId := value }

def checkSide (field : Text) : RowState → RowState :=
  checkField (parseSide field) ("unknown side '".toList ++ field ++ "'".toList)
    fun event value => { event with side := value }

def nonNegative (read : Option Int) : Option Int := read.filter fun value => 0 ≤ value

def checkPrice (field : Text) : RowState → RowState :=
  checkField (nonNegative (parseInt64 field)) "invalid non-negative integer price".toList
    fun event value => { event with price := value }

def checkQuantity (field : Text) : RowState → RowState :=
  checkField (nonNegative (parseInt64 field)) "invalid non-negative integer quantity".toList
    fun event value => { event with quantity := value }

/-- The cross-field rules run only while `row_ok` holds. -/
def checkPositive (type : EventType) (row : RowState) : RowState :=
  if row.rowOk = true ∧ row.event.type = type ∧ row.event.quantity = 0 then
    row.refuse (eventTypeToString type ++ " quantity must be greater than zero".toList)
  else row

def checkRow (timestampNs type orderId side price quantity : Text) : RowState :=
  let row := checkTimestampNs timestampNs {}
  let row := checkType type row
  let row := checkOrderId orderId row
  let row := checkSide side row
  let row := checkPrice price row
  let row := checkQuantity quantity row
  let row := checkPositive .add row
  checkPositive .trade row

/-- The error the row's `add_error` appends. -/
def rowError (sourceName : Text) (lineNumber : Nat) (trimmedLine message : Text) : ParseError :=
  { line := lineNumber, message := withSource sourceName message, row := trimmedLine }

def wrongFieldCount (count : Nat) : Text :=
  "expected 6 CSV fields, got ".toList ++ Nat.toDigits 10 count

/-- The line loop's body from the field count on. -/
def parseFields (sourceName : Text) (lineNumber : Nat) (trimmedLine : Text) (fields : List Text)
    (result : ParseResult) : ParseResult :=
  let addError := rowError sourceName lineNumber trimmedLine
  match fields with
  | [timestampNs, type, orderId, side, price, quantity] =>
      let row := checkRow timestampNs type orderId side price quantity
      { events := if row.rowOk then result.events ++ [row.event] else result.events
        errors := result.errors ++ row.messages.map addError }
  | _ => { result with errors := result.errors ++ [addError (wrongFieldCount fields.length)] }

def parseLine (sourceName : Text) (lineNumber : Nat) (line : Text) (result : ParseResult) :
    ParseResult :=
  let trimmedLine := trim line
  if trimmedLine = [] then result
  else
    let fields := splitCsvLine trimmedLine
    if isHeader fields then result
    else parseFields sourceName lineNumber trimmedLine fields result

end Rows

section Stream

/-- `std::getline`: the line without its newline, and what is left to read;
`none` where nothing could be extracted. -/
def getline (input : Text) : Option (Text × Text) :=
  if input = [] then none
  else some (input.takeWhile (· ≠ '\n'), (input.dropWhile (· ≠ '\n')).drop 1)

theorem getline_shorter {input line rest : Text} (read : getline input = some (line, rest)) :
    rest.length < input.length := by
  unfold getline at read
  split_ifs at read with nonempty
  cases read
  have positive : 0 < input.length := List.length_pos_iff.mpr nonempty
  have shorter := (List.dropWhile_suffix (l := input) (· ≠ '\n')).length_le
  rw [List.length_drop]
  omega

def parseLines (sourceName input : Text) (lineNumber : Nat) (result : ParseResult) :
    ParseResult :=
  match read : getline input with
  | none => result
  | some (line, rest) =>
      parseLines sourceName rest (lineNumber + 1)
        (parseLine sourceName (lineNumber + 1) line result)
termination_by input.length
decreasing_by exact getline_shorter read

def parseStream (input sourceName : Text) : ParseResult := parseLines sourceName input 0 {}

end Stream

end TickForge.CsvParserModel
