import SignalDesk.Decimal.Basic
import SignalDesk.Time.Span

/-!
# Settings

What an operator can choose. Every setting has a default, and a configuration without any text is
the default one.
-/

namespace SignalDesk

structure PortfolioSettings where
  startingBalance : Decimal := .ofInt64 500
  tradeSize : Decimal := .ofInt64 100
  /-- The loss, in percent of the starting balance, that halts entries. -/
  drawdownHaltPercent : Decimal := .ofInt64 10

structure PositionSettings where
  takeProfitCents : Int64 := 5
  stopLossCents : Int64 := 5
  timeStopMinutes : UInt64 := 15
  /-- The least strength of a composite that opens a position. -/
  entryThreshold : Float := 0.25

structure ActivationSettings where
  dollarVolume : Float := 250000.0
  windowSecs : UInt64 := 3600

structure ComposerSettings where
  /-- Contributing signals without which a composite is not acted on. -/
  minSignals : UInt64 := 2
  confidenceWeighting : Bool := false

structure TradeConcentrationSettings where
  enabled : Bool := false
  weight : Float := 0.8
  windowSecs : UInt64 := 300
  minTrades : UInt64 := 5
  concentrationThreshold : Float := 0.15

structure FlowAsymmetrySettings where
  enabled : Bool := false
  weight : Float := 0.9
  windowSecs : UInt64 := 300
  minTrades : UInt64 := 5
  asymmetryThreshold : Float := 2.0

structure SpreadVelocitySettings where
  enabled : Bool := false
  weight : Float := 0.8
  windowSecs : UInt64 := 300
  minSnapshots : UInt64 := 5
  velocityThreshold : Float := 0.1

structure VolumeDivergenceSettings where
  enabled : Bool := false
  weight : Float := 1.0
  windowSecs : UInt64 := 60
  baselineWindowSecs : UInt64 := 600
  volumeMultiplier : Float := 2.0
  maxPriceMoveCents : Float := 2.0
  minTrades : UInt64 := 3

structure TradeClusteringSettings where
  enabled : Bool := false
  weight : Float := 0.9
  windowSecs : UInt64 := 120
  minBurstTrades : UInt64 := 3
  burstGapSec : Float := 5.0
  quietThresholdSec : Float := 20.0

structure TradeImbalanceSettings where
  enabled : Bool := true
  weight : Float := 1.0
  windowSecs : UInt64 := 300
  minTrades : UInt64 := 5
  imbalanceThreshold : Float := 0.3

structure SignalSettings where
  tradeConcentration : TradeConcentrationSettings := {}
  flowAsymmetry : FlowAsymmetrySettings := {}
  spreadVelocity : SpreadVelocitySettings := {}
  volumeDivergence : VolumeDivergenceSettings := {}
  tradeClustering : TradeClusteringSettings := {}
  tradeImbalance : TradeImbalanceSettings := {}

structure EngineSettings where
  /-- History kept beyond the longest window. -/
  retentionMarginSecs : UInt64 := 60
  channelCapacity : UInt64 := 1024

inductive LogFormat where
  | pretty
  | json
  deriving DecidableEq

structure TelemetrySettings where
  logLevel : String := "info"
  logFormat : LogFormat := .pretty
  /-- The number under which metrics are offered to the network, if they are. -/
  metricsPort : Option UInt16 := none

structure Config where
  portfolio : PortfolioSettings := {}
  positions : PositionSettings := {}
  activation : ActivationSettings := {}
  composer : ComposerSettings := {}
  signals : SignalSettings := {}
  engine : EngineSettings := {}
  telemetry : TelemetrySettings := {}

def PositionSettings.timeStop? (settings : PositionSettings) : Option Span :=
  Span.ofMinutes? settings.timeStopMinutes

def ActivationSettings.window? (settings : ActivationSettings) : Option Span :=
  Span.ofSeconds? settings.windowSecs

end SignalDesk
