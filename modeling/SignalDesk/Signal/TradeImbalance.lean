import SignalDesk.FloatText
import SignalDesk.Config.Settings
import SignalDesk.Market.Tape
import SignalDesk.Signal.Reading

/-!
# Trade imbalance

YES minus NO contracts as a share of all contracts traded.
-/

namespace SignalDesk.TradeImbalance

open FloatText

def read (settings : TradeImbalanceSettings) (window : Span) (tape : Tape) : Reading :=
  let flow := tape.tradeFlow window
  let total := flow.totals.total
  if flow.trades < settings.minTrades.toNat then
    .silent s!"{flow.trades} trades < {settings.minTrades}"
  else if total = 0 then .silent "zero volume"
  else
    let imbalance := (flow.totals.yes.toFloat - flow.totals.no.toFloat) / total.toFloat
    if imbalance.abs < settings.imbalanceThreshold then
      .silent s!"imbalance {signedFixed 2 imbalance} within {fixed 2 settings.imbalanceThreshold}"
    else
      .bounded imbalance ((if total < 100 then total else 100).toFloat / 100.0)
        s!"{flow.totals.yes} YES vs {flow.totals.no} NO contracts ({signedFixed 2 imbalance})"

end SignalDesk.TradeImbalance
