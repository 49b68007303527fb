import SignalDesk.FloatText
import SignalDesk.Config.Settings
import SignalDesk.Market.Tape
import SignalDesk.Signal.Reading

/-!
# Trade clustering

The tape splits into bursts of trades without long gaps. A burst that breaks a long silence is
urgent, informed flow.
-/

namespace SignalDesk

/-- Trades that follow each other without a gap above the burst threshold. -/
structure Burst where
  first : Trade
  rest : List Trade
  /-- The silence before the first trade, in seconds, if an earlier trade is known. -/
  quietBefore : Option Float

def secondsBetween (earlier later : Trade) : Float := Span.seconds (later.ts - earlier.ts)

namespace Burst

def trades (burst : Burst) : List Trade := burst.first :: burst.rest

def last (burst : Burst) : Trade := burst.rest.getLastD burst.first

def seconds (burst : Burst) : Float := secondsBetween burst.first burst.last

end Burst

namespace TradeClustering

open FloatText

/-- The trades that continue a burst whose newest trade is `previous`, and the others. -/
def spanBurst (maxGap : Float) (previous : Trade) : List Trade → List Trade × List Trade
  | [] => ([], [])
  | trade :: trades =>
    if secondsBetween previous trade ≤ maxGap then
      let (continued, rest) := spanBurst maxGap trade trades
      (trade :: continued, rest)
    else ([], trade :: trades)

theorem spanBurst_append (maxGap : Float) (previous : Trade) (trades : List Trade) :
    (spanBurst maxGap previous trades).1 ++ (spanBurst maxGap previous trades).2 = trades := by
  induction trades generalizing previous with
  | nil => rfl
  | cons trade trades ih =>
    unfold spanBurst
    split
    · simpa using ih trade
    · rfl

/-- Splits trades into bursts; `prior` is the trade before them. -/
def segment (maxGap : Float) (prior : Option Trade) : List Trade → List Burst
  | [] => []
  | first :: trades =>
    let split := spanBurst maxGap first trades
    let burst : Burst := ⟨first, split.1, prior.map fun p => secondsBetween p first⟩
    burst :: segment maxGap (some burst.last) split.2
termination_by trades => trades.length
decreasing_by
  have := congrArg List.length (spanBurst_append maxGap first trades)
  simp only [List.length_append, List.length_cons] at *
  omega

def qualifies (settings : TradeClusteringSettings) (burst : Burst) : Bool :=
  settings.minBurstTrades.toNat ≤ burst.trades.length &&
    burst.quietBefore.any fun quiet => settings.quietThresholdSec ≤ quiet

def readBurst (settings : TradeClusteringSettings) (burst : Burst) : Reading :=
  let totals := SideTotals.ofTrades burst.trades
  let total := totals.total
  if total = 0 then .silent "zero volume"
  else
    let side := totals.dominant
    let dominance := totals.larger.toFloat / total.toFloat
    let count := Float.ofNat burst.trades.length
    let duration := burst.seconds
    let intensity := if duration ≤ 0.0 then 1.0 else FloatOrder.min (count / duration) 1.0
    let confidence := FloatOrder.min (count / (2.0 * settings.minBurstTrades.toFloat)) 1.0
    .bounded (side.sign * dominance * intensity) confidence
      (s!"{burst.trades.length} trades in {fixed 1 duration}s " ++
        s!"after {fixed 0 (burst.quietBefore.getD 0.0)}s quiet, " ++
        s!"{side} {fixed 0 (dominance * 100.0)}% of {total} contracts")

def read (settings : TradeClusteringSettings) (window : Span) (tape : Tape) : Reading :=
  let trades := tape.tradesWithin window
  if trades.length < settings.minBurstTrades.toNat then
    .silent s!"{trades.length} trades < {settings.minBurstTrades}"
  else
    let bursts := segment settings.burstGapSec (tape.lastTradeBefore? window) trades
    match bursts.reverse.find? (qualifies settings) with
    | some burst => readBurst settings burst
    | none => .silent "no burst after a quiet period"

end TradeClustering

end SignalDesk
