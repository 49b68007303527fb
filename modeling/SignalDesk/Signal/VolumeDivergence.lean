import SignalDesk.FloatText
import SignalDesk.Config.Settings
import SignalDesk.Market.Tape
import SignalDesk.Signal.Reading

/-!
# Volume divergence

Volume that surges while the price stays put is accumulation: someone absorbs the other side
without moving the market yet. The signal follows the dominant flow.
-/

namespace SignalDesk.VolumeDivergence

open FloatText

def readSurge (settings : VolumeDivergenceSettings) (side : Side)
    (recent baseline ratio move : Float) : Reading :=
  if ratio < settings.volumeMultiplier then
    .silent s!"volume ratio {fixed 2 ratio} below {fixed 2 settings.volumeMultiplier}"
  else if settings.maxPriceMoveCents < move then
    .silent s!"price moved {fixed 0 move}c (> {fixed 0 settings.maxPriceMoveCents}c)"
  else
    .bounded (side.sign * FloatOrder.clamp 0.0 1.0 ((ratio - 1.0) / 4.0))
      (FloatOrder.min (ratio / 5.0) 1.0 * (1.0 - move / settings.maxPriceMoveCents))
      (s!"volume {fixed 1 ratio}x baseline ({fixed 0 recent}/min vs {fixed 0 baseline}/min), " ++
        s!"price {fixed 0 move}c, {side} flow")

def read (settings : VolumeDivergenceSettings) (window baselineWindow : Span) (tape : Tape) :
    Reading :=
  let baseline := tape.volumeRate baselineWindow
  let flow := tape.tradeFlow window
  if baseline ≤ 0.0 then .silent "no baseline volume"
  else if flow.trades < settings.minTrades.toNat then
    .silent s!"{flow.trades} trades < {settings.minTrades}"
  else
    let recent := tape.volumeRate window
    readSurge settings flow.totals.dominant recent baseline (recent / baseline)
      (tape.priceChange window).abs

end SignalDesk.VolumeDivergence
