import SignalDesk.Capture
import SignalDesk.Config.Document
import SignalDesk.Engine.Sharded
import SignalDesk.CommandLine.Arguments
import SignalDesk.CommandLine.LogFilter

/-!
# The program

The program replays captured records and prints evaluations, or shows the effective configuration. A
configuration file that cannot be read gives way to the defaults; one that is malformed or invalid is
fatal.
-/

namespace SignalDesk

inductive FileContent where
  | missing
  /-- The file can be opened but not read. -/
  | unreadable (reason : String)
  | bytes (content : List UInt8)

structure Outcome where
  exitCode : UInt8
  stdout : String
  logs : List LogLine
  stderr : String

namespace Program

def versionText : String := "ssmd-momentum 0.1.0\n"

def helpText : HelpTopic → String
  | .program =>
    "Signal evaluation engine for binary prediction markets\n\n" ++
    "Usage: ssmd-momentum [OPTIONS] <COMMAND>\n\n" ++
    "Commands:\n" ++
    "  replay  Replay records through the engine, printing evaluations as JSON\n" ++
    "  config  Show the effective configuration\n" ++
    "  help    Print this message or the help of the given subcommand(s)\n\n" ++
    "Options:\n" ++
    "  -c, --config <CONFIG>  Path to configuration file [default: config.toml]\n" ++
    "  -h, --help             Print help\n" ++
    "  -V, --version          Print version\n"
  | .replay =>
    "Replay records through the engine, printing evaluations as JSON\n\n" ++
    "Usage: ssmd-momentum replay [OPTIONS] --input <INPUT>\n\n" ++
    "Options:\n" ++
    "  -i, --input <INPUT>    JSON Lines file of market records\n" ++
    "      --sharded          Evaluate each instrument on its own task\n" ++
    "      --actionable-only  Only print actionable composites and position events\n" ++
    "  -h, --help             Print help\n"
  | .showConfig =>
    "Show the effective configuration\n\n" ++
    "Usage: ssmd-momentum config\n\n" ++
    "Options:\n" ++
    "  -h, --help  Print help\n"
  | .help =>
    "Print this message or the help of the given subcommand(s)\n\n" ++
    "Usage: ssmd-momentum help [COMMAND]...\n\n" ++
    "Arguments:\n" ++
    "  [COMMAND]...  Print help for the subcommand(s)\n"

/-- The configuration to run with, and whether it had to be defaulted. -/
def loadConfig (file : FileContent) : Except ConfigError (Config × Bool) :=
  match file with
  | .bytes content =>
    match String.fromUTF8? ⟨content.toArray⟩ with
    | some text => (Config.ofToml text).map fun config => (config, false)
    | none => .ok ({}, true)
  | _ => .ok ({}, true)

def isShown (actionableOnly : Bool) (evaluation : Evaluation) : Bool :=
  !evaluation.events.isEmpty ||
    evaluation.composite.any fun composite => !actionableOnly || composite.actionable

def evaluationLine (evaluation : Evaluation) : String := Json.write evaluation.toData ++ "\n"

def evaluationLines (actionableOnly : Bool) (evaluations : List Evaluation) : String :=
  String.join ((evaluations.filter (isShown actionableOnly)).map evaluationLine)

structure Replayed where
  evaluations : List Evaluation
  notices : List Notice
  exitCode : UInt8

def abortCode : UInt8 := 101

def closing (account : Account) : List Notice :=
  match account with
  | .live portfolio =>
    [.logging .info .replayCommand "Replay complete"
      [("balance", .text portfolio.balance.toText),
        ("realized_pnl", .text portfolio.realizedPnl.toText),
        ("open_positions", .int portfolio.openPositions),
        ("halted", .bool portfolio.haltedForDrawdown)]]
  | .poisoned =>
    [Account.poisonNotice,
      .logging .error .replayCommand "Replay complete, portfolio unavailable" []]

/-- Processes records up to the first that makes the engine give up. -/
def processAll (engine : Engine) : List Record → Replayed × Engine
  | [] => (⟨[], [], 0⟩, engine)
  | record :: records =>
    match Engine.process record engine with
    | ⟨.error _, engine, notices⟩ => (⟨[], notices, abortCode⟩, engine)
    | ⟨.ok evaluation, engine, notices⟩ =>
      let (rest, engine) := processAll engine records
      (⟨evaluation.toList ++ rest.evaluations, notices ++ rest.notices, rest.exitCode⟩, engine)

def replayInOrder (config : Config) (records : List Record) : Replayed :=
  match Engine.ofConfig config with
  | .error _ => ⟨[], [], abortCode⟩
  | .ok engine =>
    let (replayed, engine) := processAll engine records
    if replayed.exitCode = 0 then
      { replayed with notices := replayed.notices ++ closing engine.account }
    else replayed

def runShards (records : List Record) : Act ShardedEngine Bool := do
  if ← ShardedEngine.feed records then ShardedEngine.shutdown else return false

def replaySharded (config : Config) (records : List Record) : Replayed :=
  match ShardedEngine.ofConfig config with
  | .error _ => ⟨[], [], abortCode⟩
  | .ok engine =>
    match runShards records engine with
    | ⟨.ok true, engine, notices⟩ => ⟨engine.output, notices ++ closing engine.account, 0⟩
    | ⟨_, engine, notices⟩ => ⟨engine.output, notices, 1⟩

def replay (config : Config) (options : ReplayOptions) (input : FileContent) : Replayed :=
  let run (capture : Capture.Replay) : Replayed :=
    match checkCapacity config.engine.channelCapacity with
    | .error _ => ⟨[], [], abortCode⟩
    | .ok () =>
      let replayed :=
        if options.sharded then replaySharded config capture.records
        else replayInOrder config capture.records
      { replayed with notices := Capture.notices options.input capture ++ replayed.notices }
  match input with
  | .missing => ⟨[], [], 1⟩
  | .unreadable reason => run (Capture.unreadable reason)
  | .bytes content => run (Capture.replay content)

def logs (format : LogFormat) (directives : List LogDirective) (notices : List Notice) :
    List LogLine :=
  match format with
  | .pretty => []
  | .json => (notices.filterMap Notice.logLine?).filter (LogDirective.allows directives)

def listening (settings : TelemetrySettings) : List Notice :=
  settings.metricsPort.toList.map fun number =>
    .logging .info .telemetry "Prometheus exporter listening" [("addr", .text s!"0.0.0.0:{number}")]

def startNotice (options : ReplayOptions) : Notice :=
  .logging .info .program "Starting replay"
    [("input", .text options.input), ("sharded", .bool options.sharded)]

def execute (config : Config) (file : String → FileContent) (stderr : String) (command : Command) :
    Outcome :=
  match LogDirective.ofSetting config.telemetry.logLevel with
  | .error _ => ⟨abortCode, "", [], stderr⟩
  | .ok directives =>
    let logs := logs config.telemetry.logFormat directives
    match command with
    | .replay options =>
      let replayed := replay config options (file options.input)
      let notices := listening config.telemetry ++ startNotice options :: replayed.notices
      ⟨replayed.exitCode, evaluationLines options.actionableOnly replayed.evaluations,
        logs notices, stderr⟩
    | .showConfig =>
      let logs := logs (listening config.telemetry)
      match config.toToml? with
      | some text => ⟨0, text, logs, stderr⟩
      | none => ⟨1, "", logs, stderr⟩

def configErrorText : ConfigError → String
  | .malformed => "Error: Failed to parse config\n"
  | .invalid fault => "Error: " ++ fault.message ++ "\n"

def defaultedText (path : String) : String :=
  "Warning: Could not load config from " ++ path ++ "\nUsing default configuration\n"

def run (args : List String) (file : String → FileContent) : Outcome :=
  match Arguments.parse args with
  | .version => ⟨0, versionText, [], ""⟩
  | .help topic => ⟨0, helpText topic, [], ""⟩
  | .misuse => ⟨2, "", [], helpText .program⟩
  | .run invocation =>
    match loadConfig (file invocation.configPath) with
    | .error error => ⟨1, "", [], configErrorText error⟩
    | .ok (config, defaulted) =>
      execute config file (if defaulted then defaultedText invocation.configPath else "")
        invocation.command

end Program

end SignalDesk
