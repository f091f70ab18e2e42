import TickForge.CsvReader
import TickForge.ReplayMainModel

/-!
# The scripts that check a replay

A transcription of `validate_lobster_replay.py` and `compare_lobster_snapshot.py`,
with the files `lobster_to_tickforge.py` opens and writes. What they print is left
out; what they count and return is not. Paths are texts with `/`
between their parts.
-/

namespace TickForge.ReplayScriptsModel

open Std (ExtTreeMap)
open DelimitedText CsvReader MarketEventModel OrderBookModel CsvParserModel CsvRoundTrip
open LobsterAdapterModel ReplayReportModel ReplayMainModel

set_option autoImplicit false

section Files

/-- What ends a script before its `return`. -/
inductive ScriptError where
  | systemExit (message : Text)
  | calledProcessError (exitCode : Nat)
  | fileNotFound (path : Text)
  | valueError
  | csvError
  | stopIteration
  | unboundLocal
  | structError
  deriving DecidableEq, Repr

def openText (env : Environment) (path : Text) : Except ScriptError Text :=
  match env.openFile path with
  | none => .error (.fileNotFound path)
  | some text => .ok text

/-- The lines of a file opened in text mode, each with its newline. -/
def textLines (text : Text) : List Text := keptLines '\n' (universalNewlines text)

/-- `[int(x) for x in line.strip().split(",")]`. -/
def intFields (line : Text) : Except ScriptError (List Int) :=
  match ((strip line).splitOn ',').mapM readInt with
  | none => .error .valueError
  | some fields => .ok fields

/-- `read_initial_book` opens the file and reads its first line that is not blank. -/
def openInitialBook (path text : Text) : Except ScriptError BookFile :=
  match (textLines text).find? fun line => strip line ≠ [] with
  | none => .ok ⟨path, none⟩
  | some line =>
      match intFields line with
      | .error failure => .error failure
      | .ok fields => .ok ⟨path, some fields⟩

def withFile (env : Environment) (path text : Text) : Environment :=
  { env with openFile := fun other => if other = path then some text else env.openFile other }

theorem with_file_arithmetic (env : Environment) (path text : Text) :
    (withFile env path text).arithmetic = env.arithmetic := rfl

def withoutFile (env : Environment) (path : Text) : Environment :=
  { env with openFile := fun other => if other = path then none else env.openFile other }

end Files

section Adapter

/-- The columns of one row of the adapter. -/
def adapterFields (row : AdapterRow) : List Text :=
  [pyInt row.timestampNs, eventTypeToString row.type, Nat.toDigits 10 row.orderId,
    sideToString row.side, pyInt row.price, pyInt row.quantity]

/-- The output file of the adapter; `csv.writer` ends its rows with a carriage
return and a newline. -/
def adapterFile (rows : List AdapterRow) : Text :=
  writeRow .crlf headerFields ++ rows.flatMap fun row => writeRow .crlf (adapterFields row)

/-- The file of `--initial-book`, if one is given. -/
def initialBookFile (env : Environment) : Option Text → Except ScriptError (Option BookFile)
  | none => .ok none
  | some path => do
      let text ← openText env path
      let file ← openInitialBook path text
      return some file

/-- A run of the adapter that reaches its end. -/
def runAdapter (args : AdapterArgs) (env : Environment) (initialBook : Option Text)
    (rows : List MessageRow) : Except ScriptError Text := do
  let book ← initialBookFile env initialBook
  match convert args book rows with
  | .error reason => .error (.systemExit reason)
  | .ok output => return adapterFile output.rows

end Adapter

section Validator

/-- The stem of a file name: a dot inside it starts the suffix, unless it is the
first letter or the last. -/
def stem (name : Text) : Text :=
  let suffix := (name.reverse.takeWhile (· ≠ '.')).reverse
  let before := name.take (name.length - suffix.length - 1)
  if suffix = [] ∨ before = [] ∨ suffix.length = name.length then name else before

def fileName (path : Text) : Text := (path.reverse.takeWhile (· ≠ '/')).reverse

/-- `args.events.parent / (args.events.stem + "_seed_only.csv")`. -/
def seedOnlyPath (events : Text) : Text :=
  let name := fileName events
  events.take (events.length - name.length) ++ stem name ++ "_seed_only.csv".toList

/-- `read_lobster_row` of the validator. -/
def readRow (text : Text) (rowIndex levels : Nat) :
    Except ScriptError (List PriceLevel × List PriceLevel) :=
  let lines := textLines text
  match lines[rowIndex]? with
  | none =>
      if lines = [] then .error .unboundLocal
      else .error (.systemExit ("orderbook only has ".toList ++ Nat.toDigits 10 lines.length ++
        " rows, requested ".toList ++ Nat.toDigits 10 rowIndex))
  | some line =>
      match intFields line with
      | .error failure => .error failure
      | .ok fields =>
          match readLobsterRow levels fields with
          | none => .error .valueError
          | some sides => .ok sides

/-- The loop of `count_seed_events` over the rows below the header; `failed` says
that an error of the reader stands behind them. -/
def countSeedRows (failed : Bool) : List (List Text) → Except ScriptError Nat
  | [] => if failed then .error .csvError else .ok 0
  | row :: rest =>
      if row.length < 6 then countSeedRows failed rest
      else match readInt (row.headD []) with
        | none => .error .valueError
        | some timestamp =>
            if timestamp = 0 then
              match countSeedRows failed rest with
              | .error failure => .error failure
              | .ok counted => .ok (counted + 1)
            else .ok 0

def countSeedEvents (text : Text) : Except ScriptError Nat :=
  let rows := readRows {} (textLines text)
  countSeedRows rows.2 rows.1.tail

/-- The header and one line for each seed. -/
def sliceSeeds (nSeeds : Nat) (text : Text) : Except ScriptError Text :=
  let lines := textLines text
  if lines.length < nSeeds + 1 then .error .stopIteration
  else .ok (lines.take (nSeeds + 1)).flatten

/-- `subprocess.run` with `check=True`, and the loop over its output. -/
def readReplay (ran : ProcessResult) : Except ScriptError ReplayReading :=
  if ran.exitCode ≠ 0 then .error (.calledProcessError ran.exitCode)
  else match replay ran.stdout with
    | none => .error .valueError
    | some reading => .ok reading

def replayArgs (path : Text) : List Text :=
  [path, "--mode".toList, "max".toList, "--allow-orphan-events".toList]

structure Check where
  summary : ExtTreeMap Text Text compare
  bidMismatches : Nat
  askMismatches : Nat

def checkLevels (reading : ReplayReading) (sides : List PriceLevel × List PriceLevel)
    (levels : Nat) : Check where
  summary := reading.summary
  bidMismatches := diff reading.bids sides.1 levels
  askMismatches := diff reading.asks sides.2 levels

def Check.passes (check : Check) : Bool := check.bidMismatches = 0 && check.askMismatches = 0

/-- What the validator counted; there are no checks in a file without seeds. -/
structure Validation where
  exitCode : Nat
  checks : Option (Check × Check) := none

/-- `main` of the validator; `run` stands for the replay program. -/
def validate (env : Environment) (run : Environment → List Text → ProcessResult)
    (events orderbook : Text) (levels : Nat) : Except ScriptError Validation := do
  let eventsText ← openText env events
  let nSeeds ← countSeedEvents eventsText
  if nSeeds = 0 then return { exitCode := 1 }
  let seedText ← sliceSeeds nSeeds eventsText
  let seedOnly := seedOnlyPath events
  let seeded := withFile env seedOnly seedText
  let seedReading ← readReplay (run seeded (replayArgs seedOnly))
  let seedBook ← openText seeded orderbook
  let seedSides ← readRow seedBook 0 levels
  let seedCheck := checkLevels seedReading seedSides levels
  let unlinked := withoutFile env seedOnly
  let endReading ← readReplay (run unlinked (replayArgs events))
  let endBook ← openText unlinked orderbook
  let endSides ← readRow endBook ((textLines endBook).length - 1) levels
  let endCheck := checkLevels endReading endSides levels
  return { exitCode := if seedCheck.passes then 0 else 1, checks := some (seedCheck, endCheck) }

end Validator

section Comparison

/-- The loop of `read_lobster_last_row`, which does not look at the sizes. -/
def lastRowSides : Nat → List Int → List PriceLevel × List PriceLevel
  | levels + 1, askPrice :: askSize :: bidPrice :: bidSize :: rest =>
      let below := lastRowSides levels rest
      (if bidPrice.natAbs ≠ lobsterSentinel then (bidPrice, bidSize) :: below.1 else below.1,
        if askPrice.natAbs ≠ lobsterSentinel then (askPrice, askSize) :: below.2 else below.2)
  | _, _ => ([], [])

def readLobsterLastRow (path text : Text) (levels : Nat) :
    Except ScriptError (List PriceLevel × List PriceLevel) :=
  match ((textLines text).filter fun line => strip line ≠ []).getLast? with
  | none => .error (.systemExit ("empty orderbook file: ".toList ++ path))
  | some line =>
      match intFields line with
      | .error failure => .error failure
      | .ok fields =>
          if fields.length < 4 * levels then
            .error (.systemExit ("orderbook row has only ".toList ++
              Nat.toDigits 10 fields.length ++ " columns, expected >= ".toList ++
              Nat.toDigits 10 (4 * levels)))
          else .ok (lastRowSides levels fields)

/-- The loop body of `run_tickforge`. -/
def readReportLine (reading : ReplayReading) (line : Text) : Option ReplayReading :=
  if !occursIn ":".toList line then some reading
  else
    let parts := partition ':' line
    let key := strip parts.1
    let value := strip parts.2
    if startswith "top_".toList key && "_bids".toList.isSuffixOf key then
      ((words isPySpace value).mapM parseToken).map fun bids => { reading with bids := bids }
    else if startswith "top_".toList key && "_asks".toList.isSuffixOf key then
      ((words isPySpace value).mapM parseToken).map fun asks => { reading with asks := asks }
    else some { reading with summary := reading.summary.insert key value }

def readReportLines : ReplayReading → List Text → Option ReplayReading
  | reading, [] => some reading
  | reading, line :: rest =>
      (readReportLine reading line).bind fun next => readReportLines next rest

def readReport (stdout : Text) : Option ReplayReading :=
  readReportLines {} (splitlines (universalNewlines stdout))

def runTickforge (ran : ProcessResult) : Except ScriptError ReplayReading :=
  if ran.exitCode ≠ 0 then
    .error (.systemExit ("tickforge_replay exited with ".toList ++ Nat.toDigits 10 ran.exitCode))
  else match readReport ran.stdout with
    | none => .error .valueError
    | some reading => .ok reading

/-- `main` of the comparison: its exit code and what it counted. -/
def compareSnapshot (env : Environment) (run : Environment → List Text → ProcessResult)
    (events orderbook : Text) (levels : Nat) : Except ScriptError (Nat × Check) := do
  let text ← openText env orderbook
  let sides ← readLobsterLastRow orderbook text levels
  let reading ← runTickforge (run env [events, "--mode".toList, "max".toList])
  let check := checkLevels reading sides levels
  return (if check.passes then 0 else 1, check)

end Comparison

end TickForge.ReplayScriptsModel
