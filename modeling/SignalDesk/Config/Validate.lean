import SignalDesk.FloatText
import SignalDesk.Decimal.Text
import SignalDesk.Config.Settings

/-!
# Validating a configuration

Each setting is checked against its bounds, in a fixed order, and the first violation is reported.
-/

namespace SignalDesk

inductive Violation where
  /-- The value, as text, is zero or negative. -/
  | notPositive (value : String)
  | notFiniteNonNegative (value : Float)
  | badWeight (value : Float)
  | longSpan (seconds : UInt64)
  | outsideUnit (value : Float)
  | outsidePercent (value : Decimal)
  | fewSnapshots
  | shortBaseline
  | shortQuiet

def maxSpanSeconds : UInt64 := 31536000

namespace Violation

def reason : Violation → String
  | notPositive value => s!"{value} must be > 0"
  | notFiniteNonNegative value => s!"{FloatText.plain value} must be finite and >= 0"
  | badWeight value => s!"weight {FloatText.plain value} must be finite and >= 0"
  | longSpan seconds => s!"{seconds}s exceeds the {maxSpanSeconds}s limit"
  | outsideUnit value => s!"{FloatText.plain value} outside [0, 1]"
  | outsidePercent value => s!"{value} outside (0, 100]"
  | fewSnapshots => "a regression needs at least 2 snapshots"
  | shortBaseline => "must be at least windowSecs"
  | shortQuiet => "must exceed burstGapSec"

end Violation

/-- A setting with the violation found in it, if any. -/
structure Check where
  field : String
  violation : Option Violation

structure ConfigFault where
  field : String
  violation : Violation

def ConfigFault.message (fault : ConfigFault) : String :=
  s!"Invalid config value {fault.field}: {fault.violation.reason}"

namespace Check

def amountPositive (field : String) (value : Decimal) : Check :=
  ⟨field, if value ≤ .zero then some (.notPositive value.toText) else none⟩

def centsPositive (field : String) (value : Int64) : Check :=
  ⟨field, if value ≤ 0 then some (.notPositive (toString value)) else none⟩

def countPositive (field : String) (value : UInt64) : Check :=
  ⟨field, if value ≤ 0 then some (.notPositive (toString value)) else none⟩

/-- An undefined float passes. -/
def floatPositive (field : String) (value : Float) : Check :=
  ⟨field, if value ≤ 0.0 then some (.notPositive (FloatText.plain value)) else none⟩

def percent (field : String) (value : Decimal) : Check :=
  ⟨field, if value ≤ .zero ∨ .hundred < value then some (.outsidePercent value) else none⟩

def isFiniteNonNegative (value : Float) : Bool := value.isFinite && !(value < 0.0)

def nonNegative (field : String) (value : Float) : Check :=
  ⟨field, if isFiniteNonNegative value then none else some (.notFiniteNonNegative value)⟩

def weight (field : String) (value : Float) : Check :=
  ⟨field, if isFiniteNonNegative value then none else some (.badWeight value)⟩

def isUnit (value : Float) : Bool := 0.0 ≤ value && value ≤ 1.0

def unit (field : String) (value : Float) : Check :=
  ⟨field, if isUnit value then none else some (.outsideUnit value)⟩

def span (field : String) (seconds : UInt64) : Check :=
  ⟨field, if maxSpanSeconds < seconds then some (.longSpan seconds) else none⟩

/-- Minutes as seconds, at most the largest word. -/
def minuteSeconds (minutes : UInt64) : UInt64 :=
  if minutes.toNat * 60 < UInt64.size then minutes * 60 else UInt64.ofNat (UInt64.size - 1)

end Check

namespace PortfolioSettings

def checks (s : PortfolioSettings) : List Check :=
  [.amountPositive "portfolio.startingBalance" s.startingBalance,
    .amountPositive "portfolio.tradeSize" s.tradeSize,
    .percent "portfolio.drawdownHaltPercent" s.drawdownHaltPercent]

end PortfolioSettings

namespace PositionSettings

def checks (s : PositionSettings) : List Check :=
  [.centsPositive "positions.takeProfitCents" s.takeProfitCents,
    .centsPositive "positions.stopLossCents" s.stopLossCents,
    .countPositive "positions.timeStopMinutes" s.timeStopMinutes,
    .span "positions.timeStopMinutes" (Check.minuteSeconds s.timeStopMinutes),
    .unit "positions.entryThreshold" s.entryThreshold]

end PositionSettings

namespace ActivationSettings

def checks (s : ActivationSettings) : List Check :=
  [.nonNegative "activation.dollarVolume" s.dollarVolume,
    .countPositive "activation.windowSecs" s.windowSecs,
    .span "activation.windowSecs" s.windowSecs]

end ActivationSettings

namespace TradeConcentrationSettings

def checks (s : TradeConcentrationSettings) : List Check :=
  [.weight "signals.tradeConcentration.weight" s.weight,
    .countPositive "signals.tradeConcentration.windowSecs" s.windowSecs,
    .span "signals.tradeConcentration.windowSecs" s.windowSecs,
    .countPositive "signals.tradeConcentration.minTrades" s.minTrades,
    .unit "signals.tradeConcentration.concentrationThreshold" s.concentrationThreshold]

end TradeConcentrationSettings

namespace FlowAsymmetrySettings

def checks (s : FlowAsymmetrySettings) : List Check :=
  [.weight "signals.flowAsymmetry.weight" s.weight,
    .countPositive "signals.flowAsymmetry.windowSecs" s.windowSecs,
    .span "signals.flowAsymmetry.windowSecs" s.windowSecs,
    .countPositive "signals.flowAsymmetry.minTrades" s.minTrades,
    .nonNegative "signals.flowAsymmetry.asymmetryThreshold" s.asymmetryThreshold]

end FlowAsymmetrySettings

namespace SpreadVelocitySettings

def checks (s : SpreadVelocitySettings) : List Check :=
  [.weight "signals.spreadVelocity.weight" s.weight,
    .countPositive "signals.spreadVelocity.windowSecs" s.windowSecs,
    .span "signals.spreadVelocity.windowSecs" s.windowSecs,
    ⟨"signals.spreadVelocity.minSnapshots", if s.minSnapshots < 2 then some .fewSnapshots else none⟩,
    .nonNegative "signals.spreadVelocity.velocityThreshold" s.velocityThreshold]

end SpreadVelocitySettings

namespace VolumeDivergenceSettings

def checks (s : VolumeDivergenceSettings) : List Check :=
  [.weight "signals.volumeDivergence.weight" s.weight,
    .countPositive "signals.volumeDivergence.windowSecs" s.windowSecs,
    .span "signals.volumeDivergence.windowSecs" s.windowSecs,
    ⟨"signals.volumeDivergence.baselineWindowSecs",
      if s.baselineWindowSecs < s.windowSecs then some .shortBaseline else none⟩,
    .span "signals.volumeDivergence.baselineWindowSecs" s.baselineWindowSecs,
    .floatPositive "signals.volumeDivergence.volumeMultiplier" s.volumeMultiplier,
    .floatPositive "signals.volumeDivergence.maxPriceMoveCents" s.maxPriceMoveCents,
    .countPositive "signals.volumeDivergence.minTrades" s.minTrades]

end VolumeDivergenceSettings

namespace TradeClusteringSettings

def checks (s : TradeClusteringSettings) : List Check :=
  [.weight "signals.tradeClustering.weight" s.weight,
    .countPositive "signals.tradeClustering.windowSecs" s.windowSecs,
    .span "signals.tradeClustering.windowSecs" s.windowSecs,
    .countPositive "signals.tradeClustering.minBurstTrades" s.minBurstTrades,
    .nonNegative "signals.tradeClustering.burstGapSec" s.burstGapSec,
    .nonNegative "signals.tradeClustering.quietThresholdSec" s.quietThresholdSec,
    ⟨"signals.tradeClustering.quietThresholdSec",
      if s.quietThresholdSec ≤ s.burstGapSec then some .shortQuiet else none⟩]

end TradeClusteringSettings

namespace TradeImbalanceSettings

def checks (s : TradeImbalanceSettings) : List Check :=
  [.weight "signals.tradeImbalance.weight" s.weight,
    .countPositive "signals.tradeImbalance.windowSecs" s.windowSecs,
    .span "signals.tradeImbalance.windowSecs" s.windowSecs,
    .countPositive "signals.tradeImbalance.minTrades" s.minTrades,
    .unit "signals.tradeImbalance.imbalanceThreshold" s.imbalanceThreshold]

end TradeImbalanceSettings

namespace SignalSettings

def checks (s : SignalSettings) : List Check :=
  s.tradeConcentration.checks ++ s.flowAsymmetry.checks ++ s.spreadVelocity.checks ++
    s.volumeDivergence.checks ++ s.tradeClustering.checks ++ s.tradeImbalance.checks

end SignalSettings

namespace Config

def checks (config : Config) : List Check :=
  config.portfolio.checks ++ config.positions.checks ++ config.activation.checks ++
    [.countPositive "composer.minSignals" config.composer.minSignals,
      .countPositive "engine.channelCapacity" config.engine.channelCapacity,
      .span "engine.retentionMarginSecs" config.engine.retentionMarginSecs] ++
    config.signals.checks

def fault? (config : Config) : Option ConfigFault :=
  config.checks.findSome? fun check => check.violation.map fun violation => ⟨check.field, violation⟩

end Config

end SignalDesk
