import SignalDesk.FloatOrder

/-!
# Readings

What a signal has to say about an instrument: a score in [-1, 1], positive for YES, a confidence in
[0, 1] and a reason in words. A score of zero is no opinion.
-/

namespace SignalDesk

inductive SignalKind where
  | tradeConcentration
  | flowAsymmetry
  | spreadVelocity
  | volumeDivergence
  | tradeClustering
  | tradeImbalance
  deriving DecidableEq

def SignalKind.name : SignalKind → String
  | tradeConcentration => "trade_concentration"
  | flowAsymmetry => "flow_asymmetry"
  | spreadVelocity => "spread_velocity"
  | volumeDivergence => "volume_divergence"
  | tradeClustering => "trade_clustering"
  | tradeImbalance => "trade_imbalance"

structure Reading where
  score : Float
  confidence : Float
  reason : String

namespace Reading

/-- A reading moved into bounds. What is not finite counts as zero, and no opinion carries no
confidence. -/
def bounded (score confidence : Float) (reason : String) : Reading :=
  let score := if score.isFinite then FloatOrder.clamp (-1.0) 1.0 score else 0.0
  let confidence :=
    if score == 0.0 || !confidence.isFinite then 0.0 else FloatOrder.clamp 0.0 1.0 confidence
  ⟨score, confidence, reason⟩

def silent (reason : String) : Reading := ⟨0.0, 0.0, reason⟩

def fired (reading : Reading) : Bool := reading.score != 0.0

end Reading

end SignalDesk
