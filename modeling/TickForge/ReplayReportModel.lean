import TickForge.LobsterAdapterModel
import TickForge.ReplayEngineModel

/-!
# The replay report and its reader

A transcription of what `tickforge_replay` prints without `--report`, and of the
parts of `validate_lobster_replay.py` that read it and compare it with an
orderbook row.
-/

namespace TickForge.ReplayReportModel

open Std (ExtTreeMap)
open BinaryRounding DelimitedText MarketEventModel OrderBookModel CsvRoundTrip LobsterAdapterModel
open ReplayEngineModel

set_option autoImplicit false

section Printing

def formatOptional : Option Int → Text
  | some value => pyInt value
  | none => "NA".toList

/-- `std::fixed` with `std::setprecision(2)`; a tie goes to the even digit. -/
def fixedTwo (value : Rat) : Text :=
  let hundredths := roundHalfEven (value * 100)
  let magnitude := hundredths.natAbs
  (if hundredths < 0 then ['-'] else []) ++ Nat.toDigits 10 (magnitude / 100) ++
    '.' :: Nat.toDigits 10 (magnitude % 100 / 10) ++ Nat.toDigits 10 (magnitude % 10)

/-- The fields of `print_summary`. -/
def streamFields (summary : ReplaySummary) : List (Text × Text) :=
  [("events_processed".toList, Nat.toDigits 10 summary.eventsProcessed),
    ("rejected_events".toList, Nat.toDigits 10 summary.rejectedEvents),
    ("final_best_bid".toList, formatOptional summary.finalBestBid),
    ("final_best_ask".toList, formatOptional summary.finalBestAsk),
    ("final_spread".toList, formatOptional summary.finalSpread),
    ("final_total_buy_depth".toList, pyInt summary.finalTotalBuyDepth),
    ("final_total_sell_depth".toList, pyInt summary.finalTotalSellDepth),
    ("latency_min_ns".toList, Nat.toDigits 10 summary.latency.minNs),
    ("latency_max_ns".toList, Nat.toDigits 10 summary.latency.maxNs),
    ("latency_mean_ns".toList, fixedTwo summary.latency.meanNs),
    ("latency_p50_ns".toList, fixedTwo summary.latency.p50Ns),
    ("latency_p95_ns".toList, fixedTwo summary.latency.p95Ns),
    ("latency_p99_ns".toList, fixedTwo summary.latency.p99Ns),
    ("throughput_events_per_sec".toList, fixedTwo summary.latency.throughputEventsPerSec)]

def fieldLine (field : Text × Text) : Text := field.1 ++ ": ".toList ++ field.2

def levelText (level : PriceLevel) : Text := pyInt level.1 ++ '@' :: pyInt level.2

/-- One line of `print_top_levels`; the label is `_bids:` or `_asks:`. -/
def topLine (n : Nat) (label : Text) (levels : List PriceLevel) : Text :=
  "top_".toList ++ Nat.toDigits 10 n ++ label ++ (levels.map levelText).flatMap (' ' :: ·)

theorem top_line_eq (n : Nat) (label : Text) (levels : List PriceLevel) :
    topLine n label levels = "top_".toList ++ Nat.toDigits 10 n ++ label ++
      (levels.map levelText).flatMap (' ' :: ·) := rfl

def topLines (book : OrderBook) (n : Nat) : List Text :=
  [topLine n "_bids:".toList (topN book .buy n), topLine n "_asks:".toList (topN book .sell n)]

/-- Every line is ended by a newline. -/
def printLines (lines : List Text) : Text := lines.flatMap (· ++ ['\n'])

/-- The lines of `print_summary` and `print_top_levels`. -/
def streamLines (summary : ReplaySummary) (book : OrderBook) : List Text :=
  "TickForge replay summary".toList :: (streamFields summary).map fieldLine ++ topLines book 10

/-- What a replay prints. -/
def streamOutput (summary : ReplaySummary) (book : OrderBook) : Text :=
  printLines (streamLines summary book)

end Printing

section Reading

/-- Where `str.splitlines` ends a line. -/
def isLineBreak (letter : Char) : Bool :=
  [10, 11, 12, 13, 28, 29, 30, 133, 8232, 8233].contains letter.toNat

/-- `str.isspace`, which `str.split`, `str.strip` and `int` go by. -/
def isPySpace (letter : Char) : Bool :=
  [9, 10, 11, 12, 13, 28, 29, 30, 31, 32, 133, 160, 5760, 8192, 8193, 8194, 8195, 8196, 8197,
    8198, 8199, 8200, 8201, 8202, 8232, 8233, 8239, 8287, 12288].contains letter.toNat

/-- Text mode turns every line end into a newline. -/
def universalNewlines : Text → Text
  | [] => []
  | '\r' :: '\n' :: rest => '\n' :: universalNewlines rest
  | letter :: rest => (if letter = '\r' then '\n' else letter) :: universalNewlines rest

def splitlines (text : Text) : List Text := linesOf isLineBreak text

def strip (text : Text) : Text := trimmed isPySpace text

def startswith (start line : Text) : Bool := start.isPrefixOf line

/-- Python's `in` between strings. -/
def occursIn (needle line : Text) : Bool := line.tails.any needle.isPrefixOf

/-- The text before the first separator and the text behind it. -/
def partition (separator : Char) (text : Text) : Text × Text :=
  (text.takeWhile (· ≠ separator), (text.dropWhile (· ≠ separator)).drop 1)

/-- Digits, with single underscores between them. -/
def readDigits (text : Text) : Option Nat :=
  let groups := text.splitOn '_'
  if groups.all fun group => !group.isEmpty && group.all Char.isDigit then
    some (Nat.ofDigitChars 10 groups.flatten 0)
  else none

/-- Python's `int` of a text in ASCII; `none` is its `ValueError`. -/
def readInt (text : Text) : Option Int :=
  let body := strip text
  if body.head? = some '-' then (readDigits (body.drop 1)).map fun magnitude => -(magnitude : Int)
  else if body.head? = some '+' then (readDigits (body.drop 1)).map Int.ofNat
  else (readDigits body).map Int.ofNat

/-- `_parse`; `none` is the `ValueError` of its `int`. -/
def parseToken (token : Text) : Option PriceLevel :=
  let parts := partition '@' token
  match readInt parts.1, readInt parts.2 with
  | some price, some size => some (price, size)
  | _, _ => none

structure ReplayReading where
  bids : List PriceLevel := []
  asks : List PriceLevel := []
  summary : ExtTreeMap Text Text compare := ∅

/-- The levels listed behind the colon of a line. -/
def readLevels (line : Text) : Option (List PriceLevel) :=
  (words isPySpace (partition ':' line).2).mapM parseToken

/-- The loop body of `replay`. -/
def readLine (reading : ReplayReading) (line : Text) : Option ReplayReading :=
  if startswith "top_".toList line && occursIn "_bids:".toList line then
    (readLevels line).map fun bids => { reading with bids := bids }
  else if startswith "top_".toList line && occursIn "_asks:".toList line then
    (readLevels line).map fun asks => { reading with asks := asks }
  else if occursIn ":".toList line then
    let parts := partition ':' line
    some { reading with summary := reading.summary.insert (strip parts.1) (strip parts.2) }
  else some reading

def readLines : ReplayReading → List Text → Option ReplayReading
  | reading, [] => some reading
  | reading, line :: rest => (readLine reading line).bind fun next => readLines next rest

/-- What `replay` makes of the standard output. -/
def replay (stdout : Text) : Option ReplayReading :=
  readLines {} (splitlines (universalNewlines stdout))

/-- The loop of `read_lobster_row` over the first `levels` groups of four columns:
bids and asks. `none` is the failed unpacking of a short group. -/
def readLobsterRow : Nat → List Int → Option (List PriceLevel × List PriceLevel)
  | 0, _ => some ([], [])
  | levels + 1, askPrice :: askSize :: bidPrice :: bidSize :: rest =>
      (readLobsterRow levels rest).map fun below =>
        (if isOccupied (bidPrice, bidSize) then (bidPrice, bidSize) :: below.1 else below.1,
          if isOccupied (askPrice, askSize) then (askPrice, askSize) :: below.2 else below.2)
  | _ + 1, _ => none

/-- The number of ranks below `levels` at which the two lists differ. -/
def diff (tf lob : List PriceLevel) (levels : Nat) : Nat :=
  (List.range levels).countP fun rank => tf[rank]? ≠ lob[rank]?

end Reading

end TickForge.ReplayReportModel
