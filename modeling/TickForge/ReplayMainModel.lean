import TickForge.Int64DepthModel
import TickForge.ReplayReportModel

/-!
# The replay program

A transcription of `main.cpp` with `CsvParser::parse_file` and
`LatencyProfiler::write_csv`: the argument loop, the three ways to stop early and
what a replay prints. Files, `std::stod`, the digits of `long double` and what the threads
and the clock do come from outside; so does every result of a replay whose arithmetic is
undefined.
-/

namespace TickForge.ReplayMainModel

open MarketEventModel CsvParserModel CsvRoundTrip LatencyProfilerModel RingBufferModel
open OrderBookModel Int64DepthModel ReplayEngineModel ReplayReportModel

set_option autoImplicit false

section Arguments

/-- A `double` as `std::stod` returns it. -/
inductive Double where
  | finite (value : Rat)
  | posInfinity
  | negInfinity
  | nan
  deriving DecidableEq, Repr

/-- `value <= 0.0`, which a NaN does not satisfy. -/
def Double.nonPositive : Double → Bool
  | .finite value => value ≤ 0
  | .posInfinity => false
  | .negInfinity => true
  | .nan => false

/-- What lies outside the program: the conversion of a number with the text of its
exception, the contents of a file that can be opened, the exception of a report that
cannot be written, and the platform's `long double`. -/
structure Environment where
  stod : Text → Except Text Double
  openFile : Text → Option Text
  openReport : Text → Except Text Unit
  longDigits : Nat := 64

def Environment.arithmetic (env : Environment) : FloatArithmetic :=
  machineArithmetic env.longDigits

/-- The locals of the argument loop. -/
structure CommandLine where
  mode : ReplayMode := .max
  speedMultiplier : Double := .finite 1
  acceptUnknownOrderOps : Bool := false
  reportPath : Option Text := none
  deriving DecidableEq, Repr

def parseMode (value : Text) : Except Text ReplayMode :=
  if value = "max".toList then .ok .max
  else if value = "realtime".toList then .ok .realtime
  else if value = "speed".toList then .ok .speed
  else .error ("unknown replay mode: ".toList ++ value)

/-- The argument loop behind the path; `none` is the return after `--help`. -/
def parseArguments (env : Environment) : CommandLine → List Text → Except Text (Option CommandLine)
  | config, [] => .ok (some config)
  | config, arg :: rest =>
      if arg = "--mode".toList then
        match rest with
        | [] => .error "--mode requires a value".toList
        | value :: later =>
            match parseMode value with
            | .error message => .error message
            | .ok mode => parseArguments env { config with mode := mode } later
      else if arg = "--speed".toList then
        match rest with
        | [] => .error "--speed requires a numeric value".toList
        | value :: later =>
            match env.stod value with
            | .error message => .error message
            | .ok speed =>
                if speed.nonPositive then .error "--speed must be greater than zero".toList
                else parseArguments env { config with speedMultiplier := speed } later
      else if arg = "--report".toList then
        match rest with
        | [] => .error "--report requires a path".toList
        | value :: later => parseArguments env { config with reportPath := some value } later
      else if arg = "--allow-orphan-events".toList then
        parseArguments env { config with acceptUnknownOrderOps := true } rest
      else if arg = "--help".toList ∨ arg = "-h".toList then .ok none
      else .error ("unknown argument: ".toList ++ arg)

end Arguments

section Files

def parseFile (env : Environment) (path : Text) : ParseResult :=
  match env.openFile path with
  | none => { errors := [⟨0, "failed to open CSV file: ".toList ++ path, []⟩] }
  | some text => parseStream text path

/-- The lines of `write_csv`. -/
def reportLines (profiler : LatencyProfiler) : List Text :=
  "event_index,latency_ns".toList ::
    profiler.samples.zipIdx.map fun sample =>
      Nat.toDigits 10 sample.2 ++ ',' :: Nat.toDigits 10 sample.1

def writeCsv (profiler : LatencyProfiler) : Text := printLines (reportLines profiler)

end Files

section Engine

/-- The constructor of the engine on the parsed arguments; the other fields of the
configuration keep their defaults. -/
def constructEngine (config : CommandLine) : Except Text ReplayEngine :=
  let refused := "speed multiplier must be finite and greater than zero".toList
  match config.speedMultiplier with
  | .finite multiplier =>
      match makeEngine
          { mode := config.mode
            speedMultiplier := multiplier
            acceptUnknownOrderOps := config.acceptUnknownOrderOps } with
      | none => .error refused
      | some engine => .ok engine
  | _ => .error refused

/-- What `engine.replay` hands back, with the engine it leaves. -/
structure Replayed where
  summary : ReplaySummary
  engine : ReplayEngine

variable (arithmetic : FloatArithmetic)

def finish (engine : ReplayEngine) (state : ReplayState) (elapsedNs : Nat) : Replayed where
  summary := summarize arithmetic state elapsedNs
  engine := { engine with book := state.book, profiler := state.profiler }

/-- No addition of quantities leaves `int64_t` and no cast of a gap leaves `uint64_t`. -/
structure ReplayDefined (engine : ReplayEngine) (events : List MarketEvent) : Prop where
  depth : DepthDefined (beginReplay engine).book events
  pacing : engine.config.mode ≠ .max → ∀ pair ∈ events.zip events.tail,
    sleepForTimestampGap arithmetic pair.1 pair.2 engine.config ≠ .undefined

instance (engine : ReplayEngine) (events : List MarketEvent) :
    Decidable (ReplayDefined arithmetic engine events) :=
  decidable_of_iff
    (DepthDefined (beginReplay engine).book events ∧
      (engine.config.mode ≠ .max → ∀ pair ∈ events.zip events.tail,
        sleepForTimestampGap arithmetic pair.1 pair.2 engine.config ≠ .undefined))
    ⟨fun both => ⟨both.1, both.2⟩, fun defined => ⟨defined.depth, defined.pacing⟩⟩

/-- The results a call of `replay` can have: in max mode those of all interleavings
in which both threads return, otherwise that of the paced loop, at any measured
times; and any result at all where the arithmetic of the replay is undefined. -/
inductive ReplayYields (engine : ReplayEngine) (events : List MarketEvent) :
    Except ReplayError Replayed → Prop where
  | threaded (isMax : engine.config.mode = .max) (ring : SpscRingBuffer MarketEvent)
      (constructed : construct engine.config.ringCapacity = some ring) (state : PipelineState)
      (reached : Relation.ReflTransGen PipelineStep (startPipeline engine ring events) state)
      (producerExited : state.producerExited) (consumerExited : state.consumer = .exited)
      (elapsedNs : Nat) :
      ReplayYields engine events (.ok (finish arithmetic engine state.body elapsedNs))
  | noRing (isMax : engine.config.mode = .max)
      (refused : (construct engine.config.ringCapacity : Option (SpscRingBuffer MarketEvent)) =
        none) :
      ReplayYields engine events
        (.error (.invalidArgument
          "SpscRingBuffer capacity must be greater than zero".toList))
  | paced (notMax : engine.config.mode ≠ .max) (latencies : Nat → Nat) (state : PacedState)
      (looped : replayPacedSingleThreaded arithmetic engine events latencies = .ok state)
      (elapsedNs : Nat) :
      ReplayYields engine events (.ok (finish arithmetic engine state.replay elapsedNs))
  | pacedFails (notMax : engine.config.mode ≠ .max) (latencies : Nat → Nat)
      (failure : ReplayError)
      (looped : replayPacedSingleThreaded arithmetic engine events latencies = .error failure) :
      ReplayYields engine events (.error failure)
  | undefined (ring : SpscRingBuffer MarketEvent)
      (constructed : construct engine.config.ringCapacity = some ring)
      (overflows : ¬ReplayDefined arithmetic engine events)
      (result : Except ReplayError Replayed) : ReplayYields engine events result

/-- `what()`; an access outside the slots throws nothing. -/
def what : ReplayError → Text
  | .invalidArgument message => message
  | .runtimeError message => message
  | .outOfBounds => []

end Engine

section Process

structure ProcessResult where
  exitCode : Nat
  stdout : Text := []
  stderr : Text := []
  reportFile : Option (Text × Text) := none
  deriving DecidableEq, Repr

def usageLines : List Text :=
  ["Usage:".toList,
    ("  ./tickforge_replay <csv_path> --mode max [--report <report_path>] " ++
      "[--allow-orphan-events]").toList,
    "  ./tickforge_replay <csv_path> --mode realtime [--report <report_path>]".toList,
    ("  ./tickforge_replay <csv_path> --mode speed --speed <multiplier> " ++
      "[--report <report_path>]").toList,
    [],
    "  --allow-orphan-events  Treat CANCEL/TRADE events that reference an".toList,
    "                         unknown order_id as a level-only depth reduction".toList,
    "                         at (side, price) by quantity. Use this when".toList,
    "                         replaying exchange feeds whose messages reference".toList,
    "                         pre-session resting orders (e.g. LOBSTER samples).".toList]

def printUsage : Text := printLines usageLines

def errorLine (error : ParseError) : Text :=
  "  line ".toList ++ Nat.toDigits 10 error.line ++ ": ".toList ++ error.message ++
    if error.row = [] then [] else " | row: ".toList ++ error.row

def parseFailure (errors : List ParseError) : Text :=
  printLines
    (("CSV parse failed with ".toList ++ Nat.toDigits 10 errors.length ++ " error(s):".toList) ::
      errors.map errorLine)

/-- The handler of the exceptions, after `stdout` was printed. -/
def caught (stdout message : Text) : ProcessResult where
  exitCode := 1
  stdout := stdout
  stderr := printLines ["error: ".toList ++ message] ++ printUsage

/-- The end of `main`, once the replay returned. -/
def reportReplay (env : Environment) (config : CommandLine) (replayed : Replayed) :
    ProcessResult :=
  let printed := streamOutput replayed.summary replayed.engine.book
  match config.reportPath with
  | none => { exitCode := 0, stdout := printed }
  | some path =>
      match env.openReport path with
      | .error message => caught printed message
      | .ok () =>
          { exitCode := 0
            stdout := printed ++ printLines ["latency_report: ".toList ++ path]
            reportFile := some (path, writeCsv replayed.engine.profiler) }

/-- The part of `main` behind the argument loop; `replay` stands for the calls of
`engine.replay`. -/
def runConfigured (env : Environment)
    (replay : ReplayEngine → List MarketEvent → Except ReplayError Replayed)
    (csvPath : Text) (config : CommandLine) : ProcessResult :=
  let parsed := parseFile env csvPath
  if !parsed.ok then { exitCode := 1, stderr := parseFailure parsed.errors }
  else match constructEngine config with
    | .error message => caught [] message
    | .ok engine =>
        match replay engine parsed.events with
        | .error failure => caught [] (what failure)
        | .ok replayed => reportReplay env config replayed

/-- `main` on the arguments behind the program's name. -/
def runMain (env : Environment)
    (replay : ReplayEngine → List MarketEvent → Except ReplayError Replayed)
    (args : List Text) : ProcessResult :=
  match args with
  | [] => { exitCode := 1, stderr := printUsage }
  | csvPath :: rest =>
      match parseArguments env {} rest with
      | .error message => caught [] message
      | .ok none => { exitCode := 0, stdout := printUsage }
      | .ok (some config) => runConfigured env replay csvPath config

end Process

end TickForge.ReplayMainModel
