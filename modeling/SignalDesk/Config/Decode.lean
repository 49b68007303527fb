import SignalDesk.Risk.Position
import SignalDesk.Toml.Reader
import SignalDesk.Config.Settings

/-!
# Decoding a configuration

A section is a table of settings, where what is not given has its default and an unknown name is an
error, or a list of the settings in order. TOML and JSON differ in two small things, which a dialect
records.
-/

namespace SignalDesk

structure Dialect where
  /-- Whether a list may be longer than the settings it gives. -/
  ignoresSurplus : Bool
  /-- Whether a value may stand beside a tag that carries none. -/
  isEmptyTag : Data → Bool

namespace Dialect

def json : Dialect where
  ignoresSurplus := false
  isEmptyTag
    | .null => true
    | _ => false

def toml : Dialect where
  ignoresSurplus := true
  isEmptyTag
    | .table [] => true
    | .list [] => true
    | _ => false

/-- The settings given in a section with the given names. -/
def members? (dialect : Dialect) (names : List String) : Data → Option (List (String × Data))
  | .table members =>
    if members.all (fun member => names.contains member.1) && !Data.repeatsKey names members then
      some members
    else none
  | .list items =>
    if dialect.ignoresSurplus || items.length ≤ names.length then some (names.zip items) else none
  | _ => none

end Dialect

namespace Data

def setting? {α : Type} (members : List (String × Data)) (name : String) (default : α)
    (read : Data → Option α) : Option α :=
  match find? name members with
  | some data => read data
  | none => some default

def float? : Data → Option Float
  | .int n => some (Float.ofInt n)
  | .float x => some x
  | _ => none

def uint16? (data : Data) : Option UInt16 := do
  let n ← data.int?
  if 0 ≤ n ∧ n < UInt16.size then return n.toNat.toUInt16 else none

end Data

open Data (setting?)

namespace PortfolioSettings

def ofData? (dialect : Dialect) (data : Data) : Option PortfolioSettings := do
  let names := ["startingBalance", "tradeSize", "drawdownHaltPercent"]
  let members ← dialect.members? names data
  let d : PortfolioSettings := {}
  return {
    startingBalance := ← setting? members "startingBalance" d.startingBalance Decimal.ofData?
    tradeSize := ← setting? members "tradeSize" d.tradeSize Decimal.ofData?
    drawdownHaltPercent :=
      ← setting? members "drawdownHaltPercent" d.drawdownHaltPercent Decimal.ofData? }

end PortfolioSettings

namespace PositionSettings

def ofData? (dialect : Dialect) (data : Data) : Option PositionSettings := do
  let names := ["takeProfitCents", "stopLossCents", "timeStopMinutes", "entryThreshold"]
  let members ← dialect.members? names data
  let d : PositionSettings := {}
  return {
    takeProfitCents := ← setting? members "takeProfitCents" d.takeProfitCents Data.int64?
    stopLossCents := ← setting? members "stopLossCents" d.stopLossCents Data.int64?
    timeStopMinutes := ← setting? members "timeStopMinutes" d.timeStopMinutes Data.uint64?
    entryThreshold := ← setting? members "entryThreshold" d.entryThreshold Data.float? }

end PositionSettings

namespace ActivationSettings

def ofData? (dialect : Dialect) (data : Data) : Option ActivationSettings := do
  let members ← dialect.members? ["dollarVolume", "windowSecs"] data
  let d : ActivationSettings := {}
  return {
    dollarVolume := ← setting? members "dollarVolume" d.dollarVolume Data.float?
    windowSecs := ← setting? members "windowSecs" d.windowSecs Data.uint64? }

end ActivationSettings

namespace ComposerSettings

def ofData? (dialect : Dialect) (data : Data) : Option ComposerSettings := do
  let members ← dialect.members? ["minSignals", "confidenceWeighting"] data
  let d : ComposerSettings := {}
  return {
    minSignals := ← setting? members "minSignals" d.minSignals Data.uint64?
    confidenceWeighting :=
      ← setting? members "confidenceWeighting" d.confidenceWeighting Data.bool? }

end ComposerSettings

namespace TradeConcentrationSettings

def ofData? (dialect : Dialect) (data : Data) : Option TradeConcentrationSettings := do
  let names := ["enabled", "weight", "windowSecs", "minTrades", "concentrationThreshold"]
  let members ← dialect.members? names data
  let d : TradeConcentrationSettings := {}
  return {
    enabled := ← setting? members "enabled" d.enabled Data.bool?
    weight := ← setting? members "weight" d.weight Data.float?
    windowSecs := ← setting? members "windowSecs" d.windowSecs Data.uint64?
    minTrades := ← setting? members "minTrades" d.minTrades Data.uint64?
    concentrationThreshold :=
      ← setting? members "concentrationThreshold" d.concentrationThreshold Data.float? }

end TradeConcentrationSettings

namespace FlowAsymmetrySettings

def ofData? (dialect : Dialect) (data : Data) : Option FlowAsymmetrySettings := do
  let names := ["enabled", "weight", "windowSecs", "minTrades", "asymmetryThreshold"]
  let members ← dialect.members? names data
  let d : FlowAsymmetrySettings := {}
  return {
    enabled := ← setting? members "enabled" d.enabled Data.bool?
    weight := ← setting? members "weight" d.weight Data.float?
    windowSecs := ← setting? members "windowSecs" d.windowSecs Data.uint64?
    minTrades := ← setting? members "minTrades" d.minTrades Data.uint64?
    asymmetryThreshold :=
      ← setting? members "asymmetryThreshold" d.asymmetryThreshold Data.float? }

end FlowAsymmetrySettings

namespace SpreadVelocitySettings

def ofData? (dialect : Dialect) (data : Data) : Option SpreadVelocitySettings := do
  let names := ["enabled", "weight", "windowSecs", "minSnapshots", "velocityThreshold"]
  let members ← dialect.members? names data
  let d : SpreadVelocitySettings := {}
  return {
    enabled := ← setting? members "enabled" d.enabled Data.bool?
    weight := ← setting? members "weight" d.weight Data.float?
    windowSecs := ← setting? members "windowSecs" d.windowSecs Data.uint64?
    minSnapshots := ← setting? members "minSnapshots" d.minSnapshots Data.uint64?
    velocityThreshold := ← setting? members "velocityThreshold" d.velocityThreshold Data.float? }

end SpreadVelocitySettings

namespace VolumeDivergenceSettings

def ofData? (dialect : Dialect) (data : Data) : Option VolumeDivergenceSettings := do
  let names := ["enabled", "weight", "windowSecs", "baselineWindowSecs", "volumeMultiplier",
    "maxPriceMoveCents", "minTrades"]
  let members ← dialect.members? names data
  let d : VolumeDivergenceSettings := {}
  return {
    enabled := ← setting? members "enabled" d.enabled Data.bool?
    weight := ← setting? members "weight" d.weight Data.float?
    windowSecs := ← setting? members "windowSecs" d.windowSecs Data.uint64?
    baselineWindowSecs :=
      ← setting? members "baselineWindowSecs" d.baselineWindowSecs Data.uint64?
    volumeMultiplier := ← setting? members "volumeMultiplier" d.volumeMultiplier Data.float?
    maxPriceMoveCents := ← setting? members "maxPriceMoveCents" d.maxPriceMoveCents Data.float?
    minTrades := ← setting? members "minTrades" d.minTrades Data.uint64? }

end VolumeDivergenceSettings

namespace TradeClusteringSettings

def ofData? (dialect : Dialect) (data : Data) : Option TradeClusteringSettings := do
  let names := ["enabled", "weight", "windowSecs", "minBurstTrades", "burstGapSec",
    "quietThresholdSec"]
  let members ← dialect.members? names data
  let d : TradeClusteringSettings := {}
  return {
    enabled := ← setting? members "enabled" d.enabled Data.bool?
    weight := ← setting? members "weight" d.weight Data.float?
    windowSecs := ← setting? members "windowSecs" d.windowSecs Data.uint64?
    minBurstTrades := ← setting? members "minBurstTrades" d.minBurstTrades Data.uint64?
    burstGapSec := ← setting? members "burstGapSec" d.burstGapSec Data.float?
    quietThresholdSec := ← setting? members "quietThresholdSec" d.quietThresholdSec Data.float? }

end TradeClusteringSettings

namespace TradeImbalanceSettings

def ofData? (dialect : Dialect) (data : Data) : Option TradeImbalanceSettings := do
  let names := ["enabled", "weight", "windowSecs", "minTrades", "imbalanceThreshold"]
  let members ← dialect.members? names data
  let d : TradeImbalanceSettings := {}
  return {
    enabled := ← setting? members "enabled" d.enabled Data.bool?
    weight := ← setting? members "weight" d.weight Data.float?
    windowSecs := ← setting? members "windowSecs" d.windowSecs Data.uint64?
    minTrades := ← setting? members "minTrades" d.minTrades Data.uint64?
    imbalanceThreshold :=
      ← setting? members "imbalanceThreshold" d.imbalanceThreshold Data.float? }

end TradeImbalanceSettings

namespace SignalSettings

def ofData? (dialect : Dialect) (data : Data) : Option SignalSettings := do
  let names := ["tradeConcentration", "flowAsymmetry", "spreadVelocity", "volumeDivergence",
    "tradeClustering", "tradeImbalance"]
  let members ← dialect.members? names data
  return {
    tradeConcentration :=
      ← setting? members "tradeConcentration" {} (TradeConcentrationSettings.ofData? dialect)
    flowAsymmetry := ← setting? members "flowAsymmetry" {} (FlowAsymmetrySettings.ofData? dialect)
    spreadVelocity :=
      ← setting? members "spreadVelocity" {} (SpreadVelocitySettings.ofData? dialect)
    volumeDivergence :=
      ← setting? members "volumeDivergence" {} (VolumeDivergenceSettings.ofData? dialect)
    tradeClustering :=
      ← setting? members "tradeClustering" {} (TradeClusteringSettings.ofData? dialect)
    tradeImbalance :=
      ← setting? members "tradeImbalance" {} (TradeImbalanceSettings.ofData? dialect) }

end SignalSettings

namespace EngineSettings

def ofData? (dialect : Dialect) (data : Data) : Option EngineSettings := do
  let members ← dialect.members? ["retentionMarginSecs", "channelCapacity"] data
  let d : EngineSettings := {}
  return {
    retentionMarginSecs :=
      ← setting? members "retentionMarginSecs" d.retentionMarginSecs Data.uint64?
    channelCapacity := ← setting? members "channelCapacity" d.channelCapacity Data.uint64? }

end EngineSettings

namespace LogFormat

def toText : LogFormat → String
  | pretty => "pretty"
  | json => "json"

def ofText? (text : String) : Option LogFormat :=
  [pretty, json].find? fun format => format.toText == text

def ofData? (dialect : Dialect) : Data → Option LogFormat
  | .text name => ofText? name
  | .table [(name, data)] => if dialect.isEmptyTag data then ofText? name else none
  | _ => none

end LogFormat

namespace TelemetrySettings

def ofData? (dialect : Dialect) (data : Data) : Option TelemetrySettings := do
  let members ← dialect.members? ["logLevel", "logFormat", "metricsPort"] data
  let d : TelemetrySettings := {}
  return {
    logLevel := ← setting? members "logLevel" d.logLevel Data.string?
    logFormat := ← setting? members "logFormat" d.logFormat (LogFormat.ofData? dialect)
    metricsPort := ← Position.optional? Data.uint16? (Data.find? "metricsPort" members) }

end TelemetrySettings

namespace Config

def ofData? (dialect : Dialect) (data : Data) : Option Config := do
  let names := ["portfolio", "positions", "activation", "composer", "signals", "engine", "telemetry"]
  let members ← dialect.members? names data
  return {
    portfolio := ← setting? members "portfolio" {} (PortfolioSettings.ofData? dialect)
    positions := ← setting? members "positions" {} (PositionSettings.ofData? dialect)
    activation := ← setting? members "activation" {} (ActivationSettings.ofData? dialect)
    composer := ← setting? members "composer" {} (ComposerSettings.ofData? dialect)
    signals := ← setting? members "signals" {} (SignalSettings.ofData? dialect)
    engine := ← setting? members "engine" {} (EngineSettings.ofData? dialect)
    telemetry := ← setting? members "telemetry" {} (TelemetrySettings.ofData? dialect) }

end Config

end SignalDesk
