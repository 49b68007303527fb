import SignalDesk.FloatText
import SignalDesk.Stats
import SignalDesk.Config.Settings
import SignalDesk.Market.Tape
import SignalDesk.Signal.Reading

/-!
# Trade concentration

A window in which few trades hold most contracts points to one motivated participant. The signal
leans to the side with more contracts.
-/

namespace SignalDesk.TradeConcentration

open FloatText

/-- The Herfindahl index of `n` counts on a scale on which equal counts are 0 and one count is 1. -/
def rescale {α : Type} [Quantity α] (index : α) (n : Nat) : α :=
  let even : α := Quantity.ofNat 1 / Quantity.ofNat n
  (index - even) / (Quantity.ofNat 1 - even)

def magnitude (index : Float) (n : Nat) : Float :=
  if n ≤ 1 then 1.0 else FloatOrder.clamp 0.0 1.0 (rescale index n)

def read (settings : TradeConcentrationSettings) (window : Span) (tape : Tape) : Reading :=
  let trades := tape.tradesWithin window
  let counts := trades.map Trade.count
  let total := Contracts.sum counts
  if trades.length < settings.minTrades.toNat then
    .silent s!"{trades.length} trades < {settings.minTrades}"
  else if total = 0 then .silent "zero volume"
  else
    let index : Float := Stats.herfindahl counts
    if index < settings.concentrationThreshold then
      .silent s!"HHI {fixed 3 index} below {fixed 3 settings.concentrationThreshold}"
    else
      let totals := SideTotals.ofTrades trades
      let side := totals.dominant
      .bounded (side.sign * magnitude index trades.length)
        ((if total < 100 then total else 100).toFloat / 100.0)
        (s!"HHI {fixed 3 index} over {trades.length} trades, " ++
          s!"{side} holds {totals.larger}/{total} contracts")

end SignalDesk.TradeConcentration
