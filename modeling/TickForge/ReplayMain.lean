import TickForge.PipelineCompletion
import TickForge.ReplayMainModel

/-!
# What the replay program does with its arguments and its file

The accepted command lines are exactly the sequences of complete switches. A run
succeeds where they are accepted, every line of the file is silent or a row, the
multiplier is finite and the report can be written; what it prints is then the fold
of the file's events, in every mode and at any times, as long as no arithmetic of the
replay overflows.
-/

namespace TickForge.ReplayMain

open StepRuns DelimitedText MarketEventModel OrderBookModel CsvParserModel CsvGrammar
open CsvRoundTrip LatencyProfilerModel Int64DepthModel
open RingBufferModel ReplayEngineModel ReplayAgreement PipelineCompletion ReplayReportModel
open ReplayMainModel

set_option autoImplicit false

section Arguments

def modeName : ReplayMode → Text
  | .max => "max".toList
  | .realtime => "realtime".toList
  | .speed => "speed".toList

theorem parse_mode_eq_ok_iff (value : Text) (mode : ReplayMode) :
    parseMode value = .ok mode ↔ value = modeName mode := by
  constructor
  · intro parsed
    unfold parseMode at parsed
    split_ifs at parsed with isMax isRealtime isSpeed <;> cases parsed <;> assumption
  · rintro rfl
    cases mode <;> decide

/-- A complete switch of the command line. -/
inductive Switch where
  | mode (mode : ReplayMode)
  | speed (value : Text)
  | report (path : Text)
  | allowOrphanEvents

/-- The arguments that spell a switch. -/
def Switch.args : Switch → List Text
  | .mode replayMode => ["--mode".toList, modeName replayMode]
  | .speed value => ["--speed".toList, value]
  | .report path => ["--report".toList, path]
  | .allowOrphanEvents => ["--allow-orphan-events".toList]

variable (env : Environment)

/-- Only a multiplier can be refused. -/
def Switch.Accepted : Switch → Prop
  | .speed value => ∃ multiplier, env.stod value = .ok multiplier ∧
      multiplier.nonPositive = false
  | _ => True

def Switch.set (config : CommandLine) : Switch → CommandLine
  | .mode replayMode => { config with mode := replayMode }
  | .speed value =>
      match env.stod value with
      | .error _ => config
      | .ok multiplier => { config with speedMultiplier := multiplier }
  | .report path => { config with reportPath := some path }
  | .allowOrphanEvents => { config with acceptUnknownOrderOps := true }

variable {env}

theorem parse_arguments_switch (config : CommandLine) (switch : Switch)
    (accepted : switch.Accepted env) (rest : List Text) :
    parseArguments env config (switch.args ++ rest) =
      parseArguments env (switch.set env config) rest := by
  cases switch with
  | mode mode =>
      have parsed := (parse_mode_eq_ok_iff (modeName mode) mode).mpr rfl
      simp only [Switch.args, Switch.set, List.cons_append, List.nil_append]
      rw [parseArguments, if_pos rfl]
      simp only [parsed]
  | speed value =>
      obtain ⟨speed, converted, positive⟩ := accepted
      have notMode : ¬"--speed".toList = "--mode".toList := by decide
      simp only [Switch.args, Switch.set, List.cons_append, List.nil_append, converted]
      rw [parseArguments, if_neg notMode, if_pos rfl]
      simp only [converted, positive, Bool.false_eq_true, if_false]
  | report path =>
      have notMode : ¬"--report".toList = "--mode".toList := by decide
      have notSpeed : ¬"--report".toList = "--speed".toList := by decide
      simp only [Switch.args, Switch.set, List.cons_append, List.nil_append]
      rw [parseArguments, if_neg notMode, if_neg notSpeed, if_pos rfl]
  | allowOrphanEvents =>
      have notMode : ¬"--allow-orphan-events".toList = "--mode".toList := by decide
      have notSpeed : ¬"--allow-orphan-events".toList = "--speed".toList := by decide
      have notReport : ¬"--allow-orphan-events".toList = "--report".toList := by decide
      simp only [Switch.args, Switch.set, List.cons_append, List.nil_append]
      rw [parseArguments.eq_def]
      dsimp only
      rw [if_neg notMode, if_neg notSpeed, if_neg notReport, if_pos rfl]

theorem parse_arguments_switches (config : CommandLine) (switches : List Switch)
    (accepted : ∀ switch ∈ switches, switch.Accepted env) (rest : List Text) :
    parseArguments env config (switches.flatMap Switch.args ++ rest) =
      parseArguments env (switches.foldl (Switch.set env) config) rest := by
  induction switches generalizing config with
  | nil => rfl
  | cons switch later ih =>
      rw [List.flatMap_cons, List.append_assoc,
        parse_arguments_switch config switch (accepted switch List.mem_cons_self),
        ih _ fun other listed => accepted other (List.mem_cons_of_mem switch listed)]
      rfl

def IsHelp (arg : Text) : Prop := arg = "--help".toList ∨ arg = "-h".toList

theorem parse_arguments_help (config : CommandLine) (help : Text) (asked : IsHelp help)
    (rest : List Text) : parseArguments env config (help :: rest) = .ok none := by
  have apart : ∀ other ∈ ["--mode".toList, "--speed".toList, "--report".toList,
      "--allow-orphan-events".toList], help ≠ other := by
    rcases asked with rfl | rfl <;> decide
  simp only [List.forall_mem_cons] at apart
  have isHelp : help = "--help".toList ∨ help = "-h".toList := asked
  rw [parseArguments.eq_def]
  dsimp only
  rw [if_neg apart.1, if_neg apart.2.1, if_neg apart.2.2.1, if_neg apart.2.2.2.1, if_pos isHelp]

variable (env) in
/-- Arguments read as complete switches, up to their end or to a request for help. -/
inductive ReadsSwitches : CommandLine → List Text → Option CommandLine → Prop where
  | ends (config : CommandLine) : ReadsSwitches config [] (some config)
  | helps (config : CommandLine) (help : Text) (asked : IsHelp help) (rest : List Text) :
      ReadsSwitches config (help :: rest) none
  | reads {config : CommandLine} (switch : Switch) {rest : List Text}
      {outcome : Option CommandLine} (accepted : switch.Accepted env)
      (later : ReadsSwitches (switch.set env config) rest outcome) :
      ReadsSwitches config (switch.args ++ rest) outcome

theorem reads_of_parsed (config : CommandLine) (args : List Text) (outcome : Option CommandLine)
    (parsed : parseArguments env config args = .ok outcome) :
    ReadsSwitches env config args outcome := by
  fun_induction parseArguments env config args with
  | case1 config =>
      cases parsed
      exact .ends config
  | case4 config value later mode named ih =>
      rw [(parse_mode_eq_ok_iff value mode).mp named]
      exact .reads (.mode mode) trivial (ih parsed)
  | case8 config value later speed converted positive notMode ih =>
      have accepted : (Switch.speed value).Accepted env :=
        ⟨speed, converted, Bool.eq_false_iff.mpr positive⟩
      refine .reads (.speed value) accepted ?_
      simp only [Switch.set, converted]
      exact ih parsed
  | case10 config value later notMode notSpeed ih =>
      exact .reads (.report value) trivial (ih parsed)
  | case11 config later notMode notSpeed notReport ih =>
      exact .reads .allowOrphanEvents trivial (ih parsed)
  | case12 config arg later notMode notSpeed notReport notOrphan asked =>
      cases parsed
      exact .helps config arg asked later
  | _ => cases parsed

/-- The switches read, gathered in one list. -/
theorem switches_of_reads {config : CommandLine} {args : List Text}
    {outcome : Option CommandLine} (reads : ReadsSwitches env config args outcome) :
    ∃ switches : List Switch, (∀ switch ∈ switches, switch.Accepted env) ∧
      ((args = switches.flatMap Switch.args ∧
          outcome = some (switches.foldl (Switch.set env) config)) ∨
        ∃ help rest, IsHelp help ∧ args = switches.flatMap Switch.args ++ help :: rest ∧
          outcome = none) := by
  induction reads with
  | ends config => exact ⟨[], by simp, .inl ⟨rfl, rfl⟩⟩
  | helps config help asked rest => exact ⟨[], by simp, .inr ⟨help, rest, asked, rfl, rfl⟩⟩
  | reads switch accepted later ih =>
      rcases ih with ⟨switches, allAccepted, read⟩
      refine ⟨switch :: switches, List.forall_mem_cons.mpr ⟨accepted, allAccepted⟩, ?_⟩
      rcases read with ⟨rfl, rfl⟩ | ⟨help, after, asked, rfl, rfl⟩
      · exact .inl ⟨rfl, rfl⟩
      · exact .inr ⟨help, after, asked, (List.append_assoc _ _ _).symm, rfl⟩

variable (env) in
/-- Complete switches that set this configuration, the later one winning. -/
def Configures (args : List Text) (config : CommandLine) : Prop :=
  ∃ switches : List Switch, (∀ switch ∈ switches, switch.Accepted env) ∧
    args = switches.flatMap Switch.args ∧ config = switches.foldl (Switch.set env) {}

variable (env) in
/-- Complete switches and then a request for help, whatever follows it. -/
def AsksHelp (args : List Text) : Prop :=
  ∃ (switches : List Switch) (help : Text) (rest : List Text),
    (∀ switch ∈ switches, switch.Accepted env) ∧ IsHelp help ∧
      args = switches.flatMap Switch.args ++ help :: rest

theorem configures_iff (args : List Text) (config : CommandLine) :
    parseArguments env {} args = .ok (some config) ↔ Configures env args config := by
  constructor
  · intro parsed
    rcases switches_of_reads (reads_of_parsed _ args _ parsed) with
      ⟨switches, accepted, ⟨spelled, set⟩ | ⟨help, rest, asked, spelled, isHelp⟩⟩
    · exact ⟨switches, accepted, spelled, Option.some.inj set⟩
    · cases isHelp
  · rintro ⟨switches, accepted, rfl, rfl⟩
    have parsed := parse_arguments_switches {} switches accepted []
    rw [List.append_nil] at parsed
    exact parsed

theorem asks_help_iff (args : List Text) :
    parseArguments env {} args = .ok none ↔ AsksHelp env args := by
  constructor
  · intro parsed
    rcases switches_of_reads (reads_of_parsed _ args _ parsed) with
      ⟨switches, accepted, ⟨spelled, set⟩ | ⟨help, rest, asked, spelled, isHelp⟩⟩
    · cases set
    · exact ⟨switches, help, rest, accepted, asked, spelled⟩
  · rintro ⟨switches, help, rest, accepted, asked, rfl⟩
    rw [parse_arguments_switches {} switches accepted]
    exact parse_arguments_help _ help asked rest

variable (env) in
/-- The argument the loop stops at, with what stands behind it, and the message. -/
inductive Refusal : List Text → Text → Prop where
  | noMode : Refusal ["--mode".toList] "--mode requires a value".toList
  | badMode (value : Text) (rest : List Text) (unknown : ∀ mode, value ≠ modeName mode) :
      Refusal ("--mode".toList :: value :: rest) ("unknown replay mode: ".toList ++ value)
  | noSpeed : Refusal ["--speed".toList] "--speed requires a numeric value".toList
  | badSpeed (value : Text) (rest : List Text) (message : Text)
      (thrown : env.stod value = .error message) :
      Refusal ("--speed".toList :: value :: rest) message
  | lowSpeed (value : Text) (rest : List Text) (speed : Double)
      (converted : env.stod value = .ok speed) (low : speed.nonPositive = true) :
      Refusal ("--speed".toList :: value :: rest) "--speed must be greater than zero".toList
  | noReport : Refusal ["--report".toList] "--report requires a path".toList
  | unknown (arg : Text) (rest : List Text)
      (apart : ∀ known ∈ ["--mode".toList, "--speed".toList, "--report".toList,
        "--allow-orphan-events".toList, "--help".toList, "-h".toList], arg ≠ known) :
      Refusal (arg :: rest) ("unknown argument: ".toList ++ arg)

theorem parse_mode_eq_error_iff (value message : Text) :
    parseMode value = .error message ↔
      (∀ mode, value ≠ modeName mode) ∧ message = "unknown replay mode: ".toList ++ value := by
  constructor
  · intro refused
    constructor
    · intro mode named
      rw [(parse_mode_eq_ok_iff value mode).mpr named] at refused
      cases refused
    · unfold parseMode at refused
      split_ifs at refused
      cases refused
      rfl
  · rintro ⟨unknown, rfl⟩
    have isMax : ¬value = "max".toList := unknown .max
    have isRealtime : ¬value = "realtime".toList := unknown .realtime
    have isSpeed : ¬value = "speed".toList := unknown .speed
    rw [parseMode, if_neg isMax, if_neg isRealtime, if_neg isSpeed]

/-- The loop stops with the message of what it stops at. -/
theorem parse_arguments_refusal (config : CommandLine) {args : List Text} {message : Text}
    (refusal : Refusal env args message) : parseArguments env config args = .error message := by
  have speedNotMode : ¬"--speed".toList = "--mode".toList := by decide
  cases refusal with
  | noMode => rw [parseArguments, if_pos rfl]
  | badMode value rest unknown =>
      have refused := (parse_mode_eq_error_iff value _).mpr ⟨unknown, rfl⟩
      rw [parseArguments, if_pos rfl]
      simp only [refused]
  | noSpeed => rw [parseArguments, if_neg speedNotMode, if_pos rfl]
  | badSpeed value rest message thrown =>
      rw [parseArguments, if_neg speedNotMode, if_pos rfl]
      simp only [thrown]
  | lowSpeed value rest speed converted low =>
      rw [parseArguments, if_neg speedNotMode, if_pos rfl]
      simp only [converted, low, if_true]
  | noReport =>
      have notMode : ¬"--report".toList = "--mode".toList := by decide
      have notSpeed : ¬"--report".toList = "--speed".toList := by decide
      rw [parseArguments, if_neg notMode, if_neg notSpeed, if_pos rfl]
  | unknown arg rest apart =>
      simp only [List.forall_mem_cons] at apart
      have noHelp : ¬(arg = "--help".toList ∨ arg = "-h".toList) :=
        not_or.mpr ⟨apart.2.2.2.2.1, apart.2.2.2.2.2.1⟩
      rw [parseArguments.eq_def]
      dsimp only
      rw [if_neg apart.1, if_neg apart.2.1, if_neg apart.2.2.1, if_neg apart.2.2.2.1,
        if_neg noHelp]

variable (env) in
/-- Complete switches and then an argument that is refused with this message. -/
def Refuses (args : List Text) (message : Text) : Prop :=
  ∃ (switches : List Switch) (stopped : List Text),
    (∀ switch ∈ switches, switch.Accepted env) ∧
      args = switches.flatMap Switch.args ++ stopped ∧ Refusal env stopped message

theorem refuses_switch (switch : Switch) (accepted : switch.Accepted env) {rest : List Text}
    {message : Text} (refused : Refuses env rest message) :
    Refuses env (switch.args ++ rest) message := by
  rcases refused with ⟨switches, stopped, allAccepted, rfl, refusal⟩
  exact ⟨switch :: switches, stopped, List.forall_mem_cons.mpr ⟨accepted, allAccepted⟩,
    (List.append_assoc _ _ _).symm, refusal⟩

theorem refuses_here {args : List Text} {message : Text} (refusal : Refusal env args message) :
    Refuses env args message :=
  ⟨[], args, by simp, rfl, refusal⟩

theorem refuses_of_parsed (config : CommandLine) (args : List Text) (message : Text)
    (parsed : parseArguments env config args = .error message) : Refuses env args message := by
  fun_induction parseArguments env config args with
  | case2 config =>
      cases parsed
      exact refuses_here .noMode
  | case3 config value later failure refused =>
      cases parsed
      rcases (parse_mode_eq_error_iff value message).mp refused with ⟨unknown, rfl⟩
      exact refuses_here (.badMode value later unknown)
  | case4 config value later mode named ih =>
      rw [(parse_mode_eq_ok_iff value mode).mp named]
      exact refuses_switch (.mode mode) trivial (ih parsed)
  | case5 config notMode =>
      cases parsed
      exact refuses_here .noSpeed
  | case6 config value later failure thrown notMode =>
      cases parsed
      exact refuses_here (.badSpeed value later message thrown)
  | case7 config value later speed converted low notMode =>
      cases parsed
      exact refuses_here (.lowSpeed value later speed converted low)
  | case8 config value later speed converted positive notMode ih =>
      have accepted : (Switch.speed value).Accepted env :=
        ⟨speed, converted, Bool.eq_false_iff.mpr positive⟩
      exact refuses_switch (.speed value) accepted (ih parsed)
  | case9 config notMode notSpeed =>
      cases parsed
      exact refuses_here .noReport
  | case10 config value later notMode notSpeed ih =>
      exact refuses_switch (.report value) trivial (ih parsed)
  | case11 config later notMode notSpeed notReport ih =>
      exact refuses_switch .allowOrphanEvents trivial (ih parsed)
  | case13 config arg later notMode notSpeed notReport notOrphan notHelp =>
      cases parsed
      rw [not_or] at notHelp
      apply refuses_here
      apply Refusal.unknown arg later
      simp only [List.forall_mem_cons]
      exact ⟨notMode, notSpeed, notReport, notOrphan, notHelp.1, notHelp.2, by simp⟩
  | _ => cases parsed

theorem refuses_iff (args : List Text) (message : Text) :
    parseArguments env {} args = .error message ↔ Refuses env args message := by
  constructor
  · exact refuses_of_parsed {} args message
  · rintro ⟨switches, stopped, accepted, rfl, refusal⟩
    rw [parse_arguments_switches {} switches accepted]
    exact parse_arguments_refusal _ refusal

/-- What `main` makes of its arguments, whatever a replay would do: none get the usage
text as an error; switches configure one run, a request for help behind switches gets the
usage text and ends well, and what can be neither gets its message and the usage text as
errors. Of the last three exactly one is the case. -/
theorem main_reads_its_arguments (env : Environment)
    (replay : ReplayEngine → List MarketEvent → Except ReplayError Replayed) :
    runMain env replay [] = { exitCode := 1, stderr := printUsage } ∧
      (∀ path rest config, Configures env rest config →
        runMain env replay (path :: rest) = runConfigured env replay path config) ∧
      (∀ path rest, AsksHelp env rest →
        runMain env replay (path :: rest) = { exitCode := 0, stdout := printUsage }) ∧
      (∀ path rest message, Refuses env rest message →
        runMain env replay (path :: rest) =
          { exitCode := 1
            stderr := printLines ["error: ".toList ++ message] ++ printUsage }) ∧
      ∀ rest, ∃! outcome : Except Text (Option CommandLine), match outcome with
        | .ok (some config) => Configures env rest config
        | .ok none => AsksHelp env rest
        | .error message => Refuses env rest message := by
  refine ⟨rfl, ?_, ?_, ?_, ?_⟩
  · intro path rest config configured
    simp only [runMain, (configures_iff rest config).mpr configured]
  · intro path rest asks
    simp only [runMain, (asks_help_iff rest).mpr asks]
  · intro path rest message refused
    simp only [runMain, (refuses_iff rest message).mpr refused]
    rfl
  · intro rest
    have spelled : ∀ outcome : Except Text (Option CommandLine),
        (match outcome with
          | .ok (some config) => Configures env rest config
          | .ok none => AsksHelp env rest
          | .error message => Refuses env rest message) ↔
            parseArguments env {} rest = outcome := by
      intro outcome
      match outcome with
      | .ok (some config) => exact (configures_iff rest config).symm
      | .ok none => exact (asks_help_iff rest).symm
      | .error message => exact (refuses_iff rest message).symm
    refine ⟨parseArguments env {} rest, (spelled _).mpr rfl, ?_⟩
    intro other reads
    exact ((spelled other).mp reads).symm

end Arguments

section Files

/-- Six fields spell at most one event. -/
theorem row_unique {fields : List Text} {event other : MarketEvent}
    (isRow : IsRow fields event) (otherRow : IsRow fields other) : event = other := by
  have spelled := isRow
  cases spelled
  have checked := (check_row_complete isRow).symm.trans (check_row_complete otherRow)
  exact congrArg RowState.event checked

theorem contributes_unique {number : Nat} {line : Text} {events others : List MarketEvent}
    {errors otherErrors : List ParseError} (contributes : Contributes number line events errors)
    (sound : errors = []) (otherContributes : Contributes number line others otherErrors) :
    events = others ∧ otherErrors = [] := by
  cases contributes with
  | silent isSilent =>
      cases otherContributes with
      | silent _ => exact ⟨rfl, rfl⟩
      | row notSilent event isRow => exact absurd isSilent notSilent
      | faulty notSilent noRow _ nonempty located => exact absurd isSilent notSilent
  | row notSilent event isRow =>
      cases otherContributes with
      | silent isSilent => exact absurd isSilent notSilent
      | row _ other otherRow => exact ⟨congrArg (fun read => [read]) (row_unique isRow otherRow), rfl⟩
      | faulty _ noRow _ nonempty located => exact absurd isRow (noRow event)
  | faulty notSilent noRow _ nonempty located => exact absurd sound nonempty

/-- Where no line is faulty, the lines determine what they contribute. -/
theorem reads_unique {number : Nat} {lines : List Text} {events others : List MarketEvent}
    {errors otherErrors : List ParseError} (reads : Reads number lines events errors)
    (sound : errors = []) (otherReads : Reads number lines others otherErrors) :
    events = others ∧ otherErrors = [] := by
  induction reads generalizing others otherErrors with
  | done number =>
      cases otherReads
      exact ⟨rfl, rfl⟩
  | line contributes later ih =>
      rcases List.append_eq_nil_iff.mp sound with ⟨lineSound, laterSound⟩
      cases otherReads with
      | line otherContributes otherLater =>
          rcases contributes_unique contributes lineSound otherContributes with ⟨rfl, rfl⟩
          rcases ih laterSound otherLater with ⟨rfl, rfl⟩
          exact ⟨rfl, rfl⟩

/-- The parser's result on a text is what its lines contribute. -/
theorem parse_stream_reads (text sourceName : Text) :
    Reads 1 (text.splitOn '\n') (parseStream text sourceName).events
      (parseStream text sourceName).errors := by
  rcases parse_lines_reads sourceName (text.splitOn '\n') (List.splitOn_ne_nil _ _)
    (split_pieces_free '\n' text) 0 with ⟨events, errors, reads, parsed⟩
  rw [List.intercalate_splitOn] at parsed
  have whole : parseStream text sourceName = ⟨events, errors⟩ := parsed {}
  rw [whole]
  exact reads

/-- The file can be opened and each of its lines is silent or a row. -/
def FileReads (env : Environment) (path : Text) (events : List MarketEvent) : Prop :=
  ∃ text, env.openFile path = some text ∧ Reads 1 (text.splitOn '\n') events []

theorem parse_file_ok_iff (env : Environment) (path : Text) (events : List MarketEvent) :
    (parseFile env path).ok = true ∧ (parseFile env path).events = events ↔
      FileReads env path events := by
  cases opened : env.openFile path with
  | none => simp [parseFile, FileReads, opened, ParseResult.ok]
  | some text =>
      have reads := parse_stream_reads text path
      simp only [parseFile, FileReads, opened, ParseResult.ok, List.isEmpty_iff,
        Option.some.injEq, exists_eq_left']
      constructor
      · rintro ⟨sound, rfl⟩
        rw [sound] at reads
        exact reads
      · intro given
        have same := reads_unique given rfl reads
        exact ⟨same.2, same.1.symm⟩

end Files

section Replays

/-- The fold's state with these samples. -/
def foldState (config : ReplayConfig) (events : List MarketEvent) (samples : List Nat) :
    ReplayState where
  book := finalState applyEvent (configuredBook config) events
  profiler := { samples := samples }
  eventsProcessed := events.length
  rejectedEvents := (outputs applyEvent (configuredBook config) events).count false

theorem handled_eq_fold {config : ReplayConfig} {events : List MarketEvent} {state : ReplayState}
    (handled : Handled config events state) :
    state = foldState config events state.profiler.samples := by
  cases state
  simp only [foldState, ReplayState.mk.injEq]
  exact ⟨handled.book, trivial, handled.processed, handled.rejected⟩

variable {engine : ReplayEngine} {events : List MarketEvent}

variable {arithmetic : FloatArithmetic}

theorem paced_handled (positive : 1 ≤ engine.config.ringCapacity)
    (bounded : engine.config.ringCapacity + 1 < 2 ^ 64) (latencies : Nat → Nat) :
    ∃ finished, replayPacedSingleThreaded arithmetic engine events latencies = .ok finished ∧
      Handled engine.config events finished.replay := by
  rcases paced_loop_handles positive bounded arithmetic engine.config latencies events 0
    none [] { ring := _, replay := beginReplay engine } (construct_drained bounded)
    (begin_replay_handled engine) with ⟨finished, looped, handled⟩
  refine ⟨finished, ?_, handled⟩
  simp only [replayPacedSingleThreaded, construct_some positive, looped]

/-- Whatever a call of `replay` does inside, it hands back the fold where the arithmetic
is defined. -/
theorem yields_fold (positive : 1 ≤ engine.config.ringCapacity)
    (bounded : engine.config.ringCapacity + 1 < 2 ^ 64)
    (defined : ReplayDefined arithmetic engine events) {result : Except ReplayError Replayed}
    (yields : ReplayYields arithmetic engine events result) :
    ∃ samples elapsedNs, samples.length = events.length ∧
      result = .ok (finish arithmetic engine (foldState engine.config events samples)
        elapsedNs) := by
  have ends : ∃ state elapsedNs, Handled engine.config events state ∧
      result = .ok (finish arithmetic engine state elapsedNs) := by
    cases yields with
    | threaded isMax ring constructed state reached producerExited consumerExited elapsedNs =>
        have started : Reached engine.config engine.config.ringCapacity events
            (startPipeline engine ring events) := start_reached positive bounded constructed
        have atEnd := reached_run (by omega) started reached
        exact ⟨state.body, elapsedNs, (exited_handled atEnd consumerExited).2, rfl⟩
    | noRing isMax refused =>
        rw [construct_some positive] at refused
        cases refused
    | paced notMax latencies state looped elapsedNs =>
        rcases paced_handled positive bounded latencies with ⟨finished, ends, handled⟩
        rw [looped] at ends
        cases ends
        exact ⟨state.replay, elapsedNs, handled, rfl⟩
    | pacedFails notMax latencies failure looped =>
        rcases paced_handled positive bounded latencies with ⟨finished, ends, _⟩
        rw [looped] at ends
        cases ends
    | undefined ring constructed overflows => exact absurd defined overflows
  rcases ends with ⟨state, elapsedNs, handled, rfl⟩
  exact ⟨state.profiler.samples, elapsedNs, handled.samples, by rw [← handled_eq_fold handled]⟩

/-- Every call of `replay` on a ring with slots can return. -/
theorem replay_returns (arithmetic : FloatArithmetic) (engine : ReplayEngine)
    (events : List MarketEvent) (positive : 1 ≤ engine.config.ringCapacity)
    (bounded : engine.config.ringCapacity + 1 < 2 ^ 64) :
    ∃ result, ReplayYields arithmetic engine events result := by
  by_cases isMax : engine.config.mode = .max
  · rcases state_finishes positive bounded (construct_some positive)
      (.refl : Relation.ReflTransGen PipelineStep (startPipeline engine _ events) _) with
      ⟨last, run, finished⟩
    exact ⟨_, .threaded isMax _ (construct_some positive) last run finished.1 finished.2 0⟩
  · rcases paced_handled positive bounded fun _ => 0 with ⟨finished, looped, _⟩
    exact ⟨_, .paced isMax _ finished looped 0⟩

end Replays

section Process

variable (env : Environment)

/-- The results `main` can have: every call of `replay` returns something it can. -/
def MainYields (args : List Text) (result : ProcessResult) : Prop :=
  ∃ replay : ReplayEngine → List MarketEvent → Except ReplayError Replayed,
    (∀ engine events, engine.config.ringCapacity = 65536 →
      ReplayYields env.arithmetic engine events (replay engine events)) ∧
    result = runMain env replay args

/-- No report is asked for, or it can be written. -/
def ReportWritable (config : CommandLine) : Prop :=
  ∀ path, config.reportPath = some path → env.openReport path = .ok ()

/-- The arithmetic of the configured replay stays defined on these events. -/
def ConfiguredDefined (config : CommandLine) (events : List MarketEvent) : Prop :=
  ∀ engine, constructEngine config = .ok engine → ReplayDefined env.arithmetic engine events

/-- What a replay needs: a finite multiplier, a file that reads, events whose arithmetic is
defined and a report that can be written. -/
structure Replayable (path : Text) (config : CommandLine) (events : List MarketEvent) : Prop where
  multiplier : ∃ value, config.speedMultiplier = .finite value ∧ 0 < value
  file : FileReads env path events
  defined : ConfiguredDefined env config events
  report : ReportWritable env config

/-- The result of a replay of these events. -/
def replayedResult (config : CommandLine) (events : List MarketEvent) (samples : List Nat)
    (elapsedNs : Nat) : ProcessResult :=
  let state := foldState { acceptUnknownOrderOps := config.acceptUnknownOrderOps } events samples
  let reportLine := config.reportPath.elim [] fun path =>
    printLines ["latency_report: ".toList ++ path]
  { exitCode := 0
    stdout := streamOutput (summarize env.arithmetic state elapsedNs) state.book ++ reportLine
    reportFile := config.reportPath.map fun path => (path, writeCsv { samples := samples }) }

/-- The program reports why it stopped and writes no report. -/
structure Failed (result : ProcessResult) : Prop where
  exitCode : result.exitCode = 1
  stderr : result.stderr ≠ []
  reportFile : result.reportFile = none

variable {env}

theorem print_lines_ne_nil (line : Text) (rest : List Text) : printLines (line :: rest) ≠ [] := by
  simp [printLines]

theorem caught_failed (stdout message : Text) : Failed (caught stdout message) where
  exitCode := rfl
  stderr := List.append_ne_nil_of_left_ne_nil (print_lines_ne_nil _ _) _
  reportFile := rfl

theorem construct_engine_ok_iff (config : CommandLine) (engine : ReplayEngine) :
    constructEngine config = .ok engine ↔
      ∃ value, config.speedMultiplier = .finite value ∧ 0 < value ∧
        engine = { config :=
          { mode := config.mode
            speedMultiplier := value
            acceptUnknownOrderOps := config.acceptUnknownOrderOps } } := by
  unfold constructEngine
  cases config.speedMultiplier with
  | finite value =>
      by_cases refused : value ≤ 0
      · simp [makeEngine, refused]
      · have positive := lt_of_not_ge refused
        simp [makeEngine, refused, positive, eq_comm]
  | posInfinity | negInfinity | nan => simp

/-- In max mode nothing but the depths of the book is computed that could overflow. -/
theorem max_mode_defined {config : CommandLine} {events : List MarketEvent}
    (isMax : config.mode = .max)
    (depth : DepthDefined
      (configuredBook { acceptUnknownOrderOps := config.acceptUnknownOrderOps }) events) :
    ConfiguredDefined env config events := by
  intro engine constructed
  rcases (construct_engine_ok_iff config engine).mp constructed with ⟨value, _, _, rfl⟩
  exact ⟨depth, fun paced => absurd isMax paced⟩

theorem report_replay_written (config : CommandLine) (replayed : Replayed)
    (writable : ReportWritable env config) :
    reportReplay env config replayed =
      { exitCode := 0
        stdout := streamOutput replayed.summary replayed.engine.book ++
          config.reportPath.elim [] fun path => printLines ["latency_report: ".toList ++ path]
        reportFile := config.reportPath.map fun path =>
          (path, writeCsv replayed.engine.profiler) } := by
  unfold reportReplay
  cases report : config.reportPath with
  | none => simp
  | some path => simp [writable path report]

theorem report_replay_failed (config : CommandLine) (replayed : Replayed)
    (refused : ¬ReportWritable env config) : Failed (reportReplay env config replayed) := by
  unfold ReportWritable at refused
  push Not at refused
  rcases refused with ⟨path, report, notOpened⟩
  unfold reportReplay
  simp only [report]
  cases opened : env.openReport path with
  | error message => exact caught_failed _ message
  | ok written => exact absurd opened notOpened

theorem configures_unique {args : List Text} {config other : CommandLine}
    (configured : Configures env args config) (otherwise : Configures env args other) :
    config = other := by
  have parsed := (configures_iff args config).mpr configured
  rw [(configures_iff args other).mpr otherwise] at parsed
  exact (Option.some.inj (Except.ok.inj parsed)).symm

theorem file_reads_unique {path : Text} {events others : List MarketEvent}
    (reads : FileReads env path events) (otherwise : FileReads env path others) :
    events = others := by
  rcases reads with ⟨text, opened, lines⟩
  rcases otherwise with ⟨same, openedAgain, otherLines⟩
  rw [opened] at openedAgain
  cases openedAgain
  exact (reads_unique lines rfl otherLines).1

section Configured

variable {replay : ReplayEngine → List MarketEvent → Except ReplayError Replayed}
variable (calls : ∀ engine events, engine.config.ringCapacity = 65536 →
  ReplayYields env.arithmetic engine events (replay engine events))
include calls

/-- The engine of a configured run hands back the fold of its events. -/
theorem configured_fold {config : CommandLine} {engine : ReplayEngine}
    (constructed : constructEngine config = .ok engine) {events : List MarketEvent}
    (defined : ConfiguredDefined env config events) :
    ∃ samples elapsedNs, samples.length = events.length ∧
      replay engine events = .ok (finish env.arithmetic engine
        (foldState { acceptUnknownOrderOps := config.acceptUnknownOrderOps } events samples)
        elapsedNs) := by
  rcases (construct_engine_ok_iff config engine).mp constructed with
    ⟨value, isFinite, positive, made⟩
  have capacity : engine.config.ringCapacity = 65536 := by rw [made]
  rcases yields_fold (by omega) (by omega) (defined engine constructed)
    (calls engine events capacity) with ⟨samples, elapsedNs, counted, replayed⟩
  refine ⟨samples, elapsedNs, counted, ?_⟩
  rw [replayed, made]
  rfl

theorem run_configured_replays {path : Text} {config : CommandLine} {events : List MarketEvent}
    (replayable : Replayable env path config events) :
    ∃ samples elapsedNs, samples.length = events.length ∧
      runConfigured env replay path config =
        replayedResult env config events samples elapsedNs := by
  rcases (parse_file_ok_iff env path events).mpr replayable.file with ⟨sound, read⟩
  rcases replayable.multiplier with ⟨value, isFinite, positive⟩
  have constructed := (construct_engine_ok_iff config _).mpr ⟨value, isFinite, positive, rfl⟩
  rcases configured_fold calls constructed replayable.defined with
    ⟨samples, elapsedNs, counted, replayed⟩
  refine ⟨samples, elapsedNs, counted, ?_⟩
  simp only [runConfigured, sound, Bool.not_true, Bool.false_eq_true, if_false, read, constructed,
    replayed]
  rw [report_replay_written config _ replayable.report]
  rfl

/-- A configured run that is no replay fails. -/
theorem run_configured_fails {path : Text} {config : CommandLine}
    (defined : ∀ events, FileReads env path events → ConfiguredDefined env config events)
    (unusable : ∀ events, ¬Replayable env path config events) :
    Failed (runConfigured env replay path config) := by
  unfold runConfigured
  cases sound : (parseFile env path).ok with
  | false =>
      simp only [sound, Bool.not_false, if_true]
      exact ⟨rfl, print_lines_ne_nil _ _, rfl⟩
  | true =>
      have read := (parse_file_ok_iff env path _).mp ⟨sound, rfl⟩
      simp only [sound, Bool.not_true, Bool.false_eq_true, if_false]
      cases constructed : constructEngine config with
      | error message => exact caught_failed [] message
      | ok engine =>
          rcases (construct_engine_ok_iff config engine).mp constructed with
            ⟨value, isFinite, positive, _⟩
          rcases configured_fold calls constructed (defined _ read) with
            ⟨samples, elapsedNs, _, replayed⟩
          simp only [replayed]
          apply report_replay_failed
          intro writable
          exact unusable _ ⟨⟨value, isFinite, positive⟩, read, defined _ read, writable⟩

end Configured

/-- A command line that `main` ends well on. -/
def EndsWell (env : Environment) (args : List Text) : Prop :=
  ∃ path rest, args = path :: rest ∧
    (AsksHelp env rest ∨
      ∃ config events, Configures env rest config ∧ Replayable env path config events)

/-- The arithmetic of the replay these arguments ask for, if any, stays defined. -/
def ArithmeticDefined (env : Environment) (args : List Text) : Prop :=
  ∀ path rest config events, args = path :: rest → Configures env rest config →
    FileReads env path events → ConfiguredDefined env config events

theorem run_main_configured
    (replay : ReplayEngine → List MarketEvent → Except ReplayError Replayed) (path : Text)
    {rest : List Text} {config : CommandLine} (configured : Configures env rest config) :
    runMain env replay (path :: rest) = runConfigured env replay path config := by
  simp only [runMain, (configures_iff rest config).mpr configured]

theorem run_main_fails {replay : ReplayEngine → List MarketEvent → Except ReplayError Replayed}
    (calls : ∀ engine events, engine.config.ringCapacity = 65536 →
      ReplayYields env.arithmetic engine events (replay engine events))
    {args : List Text} (defined : ArithmeticDefined env args) (unusable : ¬EndsWell env args) :
    Failed (runMain env replay args) := by
  cases args with
  | nil => exact ⟨rfl, print_lines_ne_nil _ _, rfl⟩
  | cons path rest =>
      cases parsed : parseArguments env {} rest with
      | error message =>
          simp only [runMain, parsed]
          exact caught_failed [] message
      | ok outcome =>
          cases outcome with
          | none =>
              have asks := (asks_help_iff rest).mp parsed
              exact absurd ⟨path, rest, rfl, .inl asks⟩ unusable
          | some config =>
              have configured := (configures_iff rest config).mp parsed
              rw [run_main_configured replay path configured]
              apply run_configured_fails calls
              · exact fun events read => defined path rest config events rfl configured read
              · intro events replayable
                exact unusable ⟨path, rest, rfl, .inr ⟨config, events, configured, replayable⟩⟩

theorem main_yields_replayed {path : Text} {rest : List Text} {result : ProcessResult}
    {config : CommandLine} {events : List MarketEvent}
    (yields : MainYields env (path :: rest) result) (configured : Configures env rest config)
    (replayable : Replayable env path config events) :
    ∃ samples elapsedNs, samples.length = events.length ∧
      result = replayedResult env config events samples elapsedNs := by
  rcases yields with ⟨replay, calls, rfl⟩
  rw [run_main_configured replay path configured]
  exact run_configured_replays calls replayable

/-- What `main` does where the arithmetic of its replay stays defined, in any mode and under
any interleaving: it ends well exactly for a request for help and for switches, a file and a
report that a replay can use; then the printed summary and the report are those of the fold,
and otherwise it says why it stopped and leaves no report. -/
theorem main_replays_what_it_accepts (env : Environment) (args : List Text)
    (defined : ArithmeticDefined env args) (result : ProcessResult)
    (yields : MainYields env args result) :
    (result.exitCode = 0 ↔ EndsWell env args) ∧
      (∀ path rest config events, args = path :: rest → Configures env rest config →
        Replayable env path config events → ∃ samples elapsedNs,
          samples.length = events.length ∧
            result = replayedResult env config events samples elapsedNs) ∧
      (¬EndsWell env args → Failed result) := by
  have replays : ∀ path rest config events, args = path :: rest → Configures env rest config →
      Replayable env path config events → ∃ samples elapsedNs,
        samples.length = events.length ∧
          result = replayedResult env config events samples elapsedNs := by
    rintro path rest config events rfl configured replayable
    exact main_yields_replayed yields configured replayable
  rcases yields with ⟨replay, calls, rfl⟩
  refine ⟨⟨?_, ?_⟩, replays, run_main_fails calls defined⟩
  · intro endedWell
    by_contra unusable
    have failed := (run_main_fails calls defined unusable).exitCode
    rw [endedWell] at failed
    cases failed
  · rintro ⟨path, rest, rfl, asks | ⟨config, events, configured, replayable⟩⟩
    · simp only [runMain, (asks_help_iff rest).mpr asks]
    · rcases replays path rest config events rfl configured replayable with
        ⟨samples, elapsedNs, _, ran⟩
      rw [ran]
      rfl

/-- `main` always can return. -/
theorem main_returns (env : Environment) (args : List Text) :
    ∃ result, MainYields env args result := by
  have returned : ∀ engine events, ∃ result, engine.config.ringCapacity = 65536 →
      ReplayYields env.arithmetic engine events result := by
    intro engine events
    by_cases capacity : engine.config.ringCapacity = 65536
    · rcases replay_returns env.arithmetic engine events (by omega) (by omega) with ⟨result, yields⟩
      exact ⟨result, fun _ => yields⟩
    · exact ⟨.error .outOfBounds, fun same => absurd same capacity⟩
  choose replay calls using returned
  exact ⟨_, replay, calls, rfl⟩

def enteredOrder : MarketEvent := { timestampNs := 1, orderId := 7, price := 10000, quantity := 10 }

/-- An environment with one file, which holds one entered order. -/
def oneOrderFile : Environment where
  stod := fun _ => .ok (.finite 2)
  openFile := fun path =>
    if path = "feed.csv".toList then some (writeFeed .lf [enteredOrder]) else none
  openReport := fun path =>
    .error ("failed to open latency report for writing: ".toList ++ path)

theorem entered_order_writable : ∀ event ∈ [enteredOrder], Writable event := by
  intro event listed
  rw [List.mem_singleton.mp listed]
  exact ⟨by decide, by decide, by decide, by decide, by decide⟩

theorem one_order_file_reads : FileReads oneOrderFile "feed.csv".toList [enteredOrder] := by
  refine ⟨_, rfl, ?_⟩
  have reads := parse_stream_reads (writeFeed .lf [enteredOrder]) []
  rw [parse_write_feed .lf [enteredOrder] entered_order_writable] at reads
  exact reads

theorem speed_two_configures : Configures oneOrderFile ["--speed".toList, "2".toList]
    { speedMultiplier := .finite 2 } := by
  have accepted : (Switch.speed "2".toList).Accepted oneOrderFile :=
    ⟨.finite 2, rfl, by decide⟩
  exact ⟨[.speed "2".toList], by simpa using accepted, rfl, rfl⟩

theorem one_order_defined :
    ConfiguredDefined oneOrderFile { speedMultiplier := .finite 2 } [enteredOrder] :=
  max_mode_defined rfl (by decide)

theorem one_order_replayable :
    Replayable oneOrderFile "feed.csv".toList { speedMultiplier := .finite 2 } [enteredOrder] where
  multiplier := ⟨2, rfl, by decide⟩
  file := one_order_file_reads
  defined := one_order_defined
  report := by
    intro path asked
    cases asked

/-- In max mode, under any interleaving, the one order is replayed. -/
theorem one_order_file_replays :
    let args := ["feed.csv".toList, "--speed".toList, "2".toList]
    (∃ result, MainYields oneOrderFile args result) ∧
      ∀ result, MainYields oneOrderFile args result → result.exitCode = 0 := by
  intro args
  refine ⟨main_returns oneOrderFile args, ?_⟩
  intro result yields
  have defined : ArithmeticDefined oneOrderFile args := by
    intro path rest config events spelled configured read
    rcases List.cons.inj spelled with ⟨rfl, rfl⟩
    cases configures_unique configured speed_two_configures
    cases file_reads_unique read one_order_file_reads
    exact one_order_defined
  exact (main_replays_what_it_accepts oneOrderFile args defined result yields).1.mpr
    ⟨_, _, rfl, .inr ⟨_, _, speed_two_configures, one_order_replayable⟩⟩

end Process

end TickForge.ReplayMain
