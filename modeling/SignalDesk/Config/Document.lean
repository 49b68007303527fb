import SignalDesk.Toml.Writer
import SignalDesk.Config.Decode
import SignalDesk.Config.Validate

/-!
# Configurations as documents

A configuration is loaded from TOML text and validated. The effective configuration is written back
as TOML, section by section, or as JSON data.
-/

namespace SignalDesk

inductive ConfigError where
  | malformed
  | invalid (fault : ConfigFault)

namespace Config

def validate (config : Config) : Except ConfigError Config :=
  match config.fault? with
  | some fault => .error (.invalid fault)
  | none => .ok config

def ofToml (text : String) : Except ConfigError Config :=
  match (Toml.read? text).bind (ofData? .toml) with
  | some config => config.validate
  | none => .error .malformed

open Toml (Scalar)

def count (n : UInt64) : Scalar := .int n.toNat

def cents (n : Int64) : Scalar := .int n.toInt

def amount (d : Decimal) : Scalar := .text d.toText

/-- The settings of every section, under the dotted name of the section. -/
def sections (config : Config) : List Toml.Section :=
  let portfolio := config.portfolio
  let positions := config.positions
  let concentration := config.signals.tradeConcentration
  let asymmetry := config.signals.flowAsymmetry
  let velocity := config.signals.spreadVelocity
  let divergence := config.signals.volumeDivergence
  let clustering := config.signals.tradeClustering
  let imbalance := config.signals.tradeImbalance
  [⟨"portfolio",
      [("startingBalance", amount portfolio.startingBalance),
        ("tradeSize", amount portfolio.tradeSize),
        ("drawdownHaltPercent", amount portfolio.drawdownHaltPercent)]⟩,
    ⟨"positions",
      [("takeProfitCents", cents positions.takeProfitCents),
        ("stopLossCents", cents positions.stopLossCents),
        ("timeStopMinutes", count positions.timeStopMinutes),
        ("entryThreshold", .float positions.entryThreshold)]⟩,
    ⟨"activation",
      [("dollarVolume", .float config.activation.dollarVolume),
        ("windowSecs", count config.activation.windowSecs)]⟩,
    ⟨"composer",
      [("minSignals", count config.composer.minSignals),
        ("confidenceWeighting", .bool config.composer.confidenceWeighting)]⟩,
    ⟨"signals.tradeConcentration",
      [("enabled", .bool concentration.enabled), ("weight", .float concentration.weight),
        ("windowSecs", count concentration.windowSecs), ("minTrades", count concentration.minTrades),
        ("concentrationThreshold", .float concentration.concentrationThreshold)]⟩,
    ⟨"signals.flowAsymmetry",
      [("enabled", .bool asymmetry.enabled), ("weight", .float asymmetry.weight),
        ("windowSecs", count asymmetry.windowSecs), ("minTrades", count asymmetry.minTrades),
        ("asymmetryThreshold", .float asymmetry.asymmetryThreshold)]⟩,
    ⟨"signals.spreadVelocity",
      [("enabled", .bool velocity.enabled), ("weight", .float velocity.weight),
        ("windowSecs", count velocity.windowSecs), ("minSnapshots", count velocity.minSnapshots),
        ("velocityThreshold", .float velocity.velocityThreshold)]⟩,
    ⟨"signals.volumeDivergence",
      [("enabled", .bool divergence.enabled), ("weight", .float divergence.weight),
        ("windowSecs", count divergence.windowSecs),
        ("baselineWindowSecs", count divergence.baselineWindowSecs),
        ("volumeMultiplier", .float divergence.volumeMultiplier),
        ("maxPriceMoveCents", .float divergence.maxPriceMoveCents),
        ("minTrades", count divergence.minTrades)]⟩,
    ⟨"signals.tradeClustering",
      [("enabled", .bool clustering.enabled), ("weight", .float clustering.weight),
        ("windowSecs", count clustering.windowSecs),
        ("minBurstTrades", count clustering.minBurstTrades),
        ("burstGapSec", .float clustering.burstGapSec),
        ("quietThresholdSec", .float clustering.quietThresholdSec)]⟩,
    ⟨"signals.tradeImbalance",
      [("enabled", .bool imbalance.enabled), ("weight", .float imbalance.weight),
        ("windowSecs", count imbalance.windowSecs), ("minTrades", count imbalance.minTrades),
        ("imbalanceThreshold", .float imbalance.imbalanceThreshold)]⟩,
    ⟨"engine",
      [("retentionMarginSecs", count config.engine.retentionMarginSecs),
        ("channelCapacity", count config.engine.channelCapacity)]⟩,
    ⟨"telemetry",
      [("logLevel", .text config.telemetry.logLevel),
        ("logFormat", .text config.telemetry.logFormat.toText)] ++
      (config.telemetry.metricsPort.toList.map fun number => ("metricsPort", .int number.toNat))⟩]

/-- The configuration as TOML text; a count beyond 64 bits with a sign cannot be written. -/
def toToml? (config : Config) : Option String := Toml.write? config.sections

def scalarData : Scalar → Data
  | .bool b => .bool b
  | .int n => .int n
  | .float x => .float x
  | .text s => .text s

def sectionData (config : Config) (header : String) : Data :=
  .table ((config.sections.filter fun table => table.header == header).flatMap fun table =>
    table.pairs.map fun pair => (pair.1, scalarData pair.2))

def toData (config : Config) : Data :=
  let signals := ["tradeConcentration", "flowAsymmetry", "spreadVelocity", "volumeDivergence",
    "tradeClustering", "tradeImbalance"]
  let metricsPort := config.telemetry.metricsPort
  let telemetry : List (String × Data) :=
    [("logLevel", .text config.telemetry.logLevel),
      ("logFormat", .text config.telemetry.logFormat.toText),
      ("metricsPort", .ofOption (fun number => .int number.toNat) metricsPort)]
  .table (["portfolio", "positions", "activation", "composer"].map (fun name =>
      (name, config.sectionData name)) ++
    [("signals", .table (signals.map fun name => (name, config.sectionData ("signals." ++ name)))),
      ("engine", config.sectionData "engine"), ("telemetry", .table telemetry)])

end Config

end SignalDesk
