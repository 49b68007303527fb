import SignalDesk.FloatText
import SignalDesk.Stats
import SignalDesk.Config.Settings
import SignalDesk.Market.Tape
import SignalDesk.Signal.Reading

/-!
# Flow asymmetry

YES and NO prices of a binary market add up to about 100 cents. When YES buyers pay more than the
NO side implies, demand for YES is outrunning the book, and the other way round.
-/

namespace SignalDesk.FlowAsymmetry

open FloatText

def sideMean (trades : List Trade) (side : Side) : Option Float :=
  Stats.weightedMean ((trades.filter fun t => t.side == side).map fun t => (t.price, t.count))

def read (settings : FlowAsymmetrySettings) (window : Span) (tape : Tape) : Reading :=
  let trades := tape.tradesWithin window
  if trades.length < settings.minTrades.toNat then
    .silent s!"{trades.length} trades < {settings.minTrades}"
  else
    match sideMean trades .yes, sideMean trades .no with
    | some yes, some no =>
      let implied := 100.0 - no
      let asymmetry := yes - implied
      if asymmetry.abs < settings.asymmetryThreshold then
        .silent
          s!"asymmetry {signedFixed 2 asymmetry}c within {fixed 2 settings.asymmetryThreshold}c"
      else
        .bounded (FloatOrder.signum asymmetry * FloatOrder.min (asymmetry.abs / 10.0) 1.0)
          (FloatOrder.min (Float.ofNat trades.length / 20.0) 1.0)
          (s!"YES avg {fixed 2 yes}c vs NO-implied {fixed 2 implied}c " ++
            s!"({signedFixed 2 asymmetry}c)")
    | _, _ => .silent "one-sided flow"

end SignalDesk.FlowAsymmetry
