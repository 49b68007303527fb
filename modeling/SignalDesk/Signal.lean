import SignalDesk.Abort
import SignalDesk.Signal.TradeConcentration
import SignalDesk.Signal.FlowAsymmetry
import SignalDesk.Signal.SpreadVelocity
import SignalDesk.Signal.VolumeDivergence
import SignalDesk.Signal.TradeClustering
import SignalDesk.Signal.TradeImbalance

/-!
# Signals

A signal reads the tape of an instrument and nothing else. The enabled signals of a configuration
always come in the same order.
-/

namespace SignalDesk

inductive Signal where
  | tradeConcentration (settings : TradeConcentrationSettings)
  | flowAsymmetry (settings : FlowAsymmetrySettings)
  | spreadVelocity (settings : SpreadVelocitySettings)
  | volumeDivergence (settings : VolumeDivergenceSettings)
  | tradeClustering (settings : TradeClusteringSettings)
  | tradeImbalance (settings : TradeImbalanceSettings)

namespace Signal

def kind : Signal → SignalKind
  | tradeConcentration _ => .tradeConcentration
  | flowAsymmetry _ => .flowAsymmetry
  | spreadVelocity _ => .spreadVelocity
  | volumeDivergence _ => .volumeDivergence
  | tradeClustering _ => .tradeClustering
  | tradeImbalance _ => .tradeImbalance

def weight : Signal → Float
  | tradeConcentration s => s.weight
  | flowAsymmetry s => s.weight
  | spreadVelocity s => s.weight
  | volumeDivergence s => s.weight
  | tradeClustering s => s.weight
  | tradeImbalance s => s.weight

def windowSecs : Signal → UInt64
  | tradeConcentration s => s.windowSecs
  | flowAsymmetry s => s.windowSecs
  | spreadVelocity s => s.windowSecs
  | volumeDivergence s => s.windowSecs
  | tradeClustering s => s.windowSecs
  | tradeImbalance s => s.windowSecs

def baselineSecs : Signal → UInt64
  | volumeDivergence s => s.baselineWindowSecs
  | signal => signal.windowSecs

/-- The spans of the two windows of a signal, which are one for most. -/
def windows (signal : Signal) : Except Abort (Span × Span) := do
  let window ← orAbort .spanOutOfRange (Span.ofSeconds? signal.windowSecs)
  let baseline ← orAbort .spanOutOfRange (Span.ofSeconds? signal.baselineSecs)
  return (window, baseline)

def lookback (signal : Signal) : Except Abort Span := do
  let (window, baseline) ← signal.windows
  return max window baseline

def readWithin (tape : Tape) (window baseline : Span) : Signal → Reading
  | tradeConcentration s => TradeConcentration.read s window tape
  | flowAsymmetry s => FlowAsymmetry.read s window tape
  | spreadVelocity s => SpreadVelocity.read s window tape
  | volumeDivergence s => VolumeDivergence.read s window baseline tape
  | tradeClustering s => TradeClustering.read s window tape
  | tradeImbalance s => TradeImbalance.read s window tape

def read (signal : Signal) (tape : Tape) : Except Abort Reading := do
  let (window, baseline) ← signal.windows
  return signal.readWithin tape window baseline

end Signal

namespace SignalSettings

def all (settings : SignalSettings) : List (Bool × Signal) :=
  [(settings.tradeConcentration.enabled, .tradeConcentration settings.tradeConcentration),
    (settings.flowAsymmetry.enabled, .flowAsymmetry settings.flowAsymmetry),
    (settings.spreadVelocity.enabled, .spreadVelocity settings.spreadVelocity),
    (settings.volumeDivergence.enabled, .volumeDivergence settings.volumeDivergence),
    (settings.tradeClustering.enabled, .tradeClustering settings.tradeClustering),
    (settings.tradeImbalance.enabled, .tradeImbalance settings.tradeImbalance)]

def enabled (settings : SignalSettings) : List Signal :=
  (settings.all.filter Prod.fst).map Prod.snd

end SignalSettings

end SignalDesk
