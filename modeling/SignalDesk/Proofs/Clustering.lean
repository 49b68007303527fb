import SignalDesk.Signal.TradeClustering

/-!
# Bursts of changed trades

Trades fall into bursts by the seconds between them. A change to all trades that keeps these seconds
keeps the bursts, and the reading of a burst is decided by its trades and the silence before it.
-/

namespace SignalDesk

def Burst.map (f : Trade → Trade) (burst : Burst) : Burst :=
  ⟨f burst.first, burst.rest.map f, burst.quietBefore⟩

namespace TradeClustering

variable {f : Trade → Trade}

@[simp] theorem trades_map (f : Trade → Trade) (burst : Burst) :
    (burst.map f).trades = burst.trades.map f := rfl

@[simp] theorem quietBefore_map (f : Trade → Trade) (burst : Burst) :
    (burst.map f).quietBefore = burst.quietBefore := rfl

private theorem last_map (f : Trade → Trade) (burst : Burst) : (burst.map f).last = f burst.last := by
  simp only [Burst.last, Burst.map, List.getLastD_eq_getLast?, List.getLast?_map]
  cases burst.rest.getLast? <;> rfl

private theorem qualifies_map (settings : TradeClusteringSettings) (f : Trade → Trade)
    (burst : Burst) : qualifies settings (burst.map f) = qualifies settings burst := by
  simp only [qualifies, trades_map, quietBefore_map, List.length_map]

variable (hseconds : ∀ earlier later, secondsBetween (f earlier) (f later) = secondsBetween earlier later)

include hseconds

theorem seconds_map (burst : Burst) : (burst.map f).seconds = burst.seconds := by
  rw [Burst.seconds, last_map]
  exact hseconds burst.first burst.last

private theorem spanBurst_map (maxGap : Float) (previous : Trade) (trades : List Trade) :
    spanBurst maxGap (f previous) (trades.map f) =
      ((spanBurst maxGap previous trades).1.map f, (spanBurst maxGap previous trades).2.map f) := by
  induction trades generalizing previous with
  | nil => rfl
  | cons trade trades ih =>
    simp only [List.map_cons, spanBurst, hseconds, ih]
    split <;> rfl

private theorem segment_map (maxGap : Float) (prior : Option Trade) (trades : List Trade) :
    segment maxGap (prior.map f) (trades.map f) = (segment maxGap prior trades).map (Burst.map f) := by
  induction prior, trades using segment.induct maxGap with
  | case1 prior => simp only [List.map_nil, segment]
  | case2 prior first trades split burst ih =>
    have hburst : burst.map f = ⟨f first, split.1.map f,
        (prior.map f).map fun p => secondsBetween p (f first)⟩ := by
      simp only [Burst.map, burst, Option.map_map, Function.comp_def, hseconds]
    rw [Option.map_some, ← last_map f burst] at ih
    rw [List.map_cons, segment, segment, spanBurst_map hseconds, ← hburst]
    exact congrArg (List.cons (burst.map f)) ih

theorem find?_segment_map (settings : TradeClusteringSettings) (prior : Option Trade)
    (trades : List Trade) :
    (segment settings.burstGapSec (prior.map f) (trades.map f)).reverse.find? (qualifies settings) =
      ((segment settings.burstGapSec prior trades).reverse.find? (qualifies settings)).map
        (Burst.map f) := by
  rw [segment_map hseconds, ← List.map_reverse, List.find?_map]
  simp only [Function.comp_def, qualifies_map]

end TradeClustering

end SignalDesk
