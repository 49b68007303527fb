import SignalDesk.FloatOrder

/-!
# Fusion

Weighted readings are fused into one mean score and one mean confidence. A reading contributes when
it has an opinion and a finite positive weight.
-/

namespace SignalDesk

structure WeightedReading where
  weight : Float
  score : Float
  confidence : Float

structure Fused where
  score : Float
  confidence : Float
  contributing : Nat

namespace WeightedReading

/-- The weight in the mean, scaled by the confidence if wanted. -/
def effectiveWeight (byConfidence : Bool) (row : WeightedReading) : Float :=
  if byConfidence then row.weight * row.confidence else row.weight

def contributes (byConfidence : Bool) (row : WeightedReading) : Bool :=
  let weight := row.effectiveWeight byConfidence
  row.score != 0.0 && weight.isFinite && !(weight ≤ 0.0)

end WeightedReading

namespace Fused

def empty : Fused := ⟨0.0, 0.0, 0⟩

structure Sums where
  weight : Float
  score : Float
  confidence : Float
  count : Nat

def Sums.add (byConfidence : Bool) (sums : Sums) (row : WeightedReading) : Sums :=
  if row.contributes byConfidence then
    let weight := row.effectiveWeight byConfidence
    ⟨sums.weight + weight, sums.score + weight * row.score,
      sums.confidence + weight * row.confidence, sums.count + 1⟩
  else sums

def ofRows (byConfidence : Bool) (rows : List WeightedReading) : Fused :=
  let sums := rows.foldl (Sums.add byConfidence) ⟨0.0, 0.0, 0.0, 0⟩
  if sums.count = 0 || sums.weight ≤ 0.0 then empty
  else
    ⟨FloatOrder.clamp (-1.0) 1.0 (sums.score / sums.weight),
      FloatOrder.clamp 0.0 1.0 (sums.confidence / sums.weight), sums.count⟩

end Fused

end SignalDesk
