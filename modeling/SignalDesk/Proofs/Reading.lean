import SignalDesk.Signal
import SignalDesk.Proofs.Act
import SignalDesk.Proofs.Float.Value

/-!
# Readings in bounds

Whatever its thresholds and whatever tape it reads, a signal answers with a score in [-1, 1] and a
confidence in [0, 1], and without an opinion with no confidence. The formulas of the signals divide
by totals, spans and thresholds, so they may be undefined, infinite or out of range; but every
answer is either silent or has been through `Reading.bounded`.
-/

namespace SignalDesk

open FloatValue

namespace Reading

/-- A score in [-1, 1] with a confidence in [0, 1], which is zero if the score is. -/
structure InBounds (reading : Reading) : Prop where
  score_defined : reading.score.isNaN = false
  score_ge : -1.0 ≤ reading.score
  score_le : reading.score ≤ 1.0
  confidence_defined : reading.confidence.isNaN = false
  confidence_ge : 0.0 ≤ reading.confidence
  confidence_le : reading.confidence ≤ 1.0
  silent : (reading.score == 0.0) = true → reading.confidence = 0.0

variable {reading : Reading}

private theorem InBounds.of_values (hscore : reading.score.isFinite = true)
    (hge : -1 ≤ value reading.score) (hle : value reading.score ≤ 1)
    (hconfidence : reading.confidence.isFinite = true) (hge' : 0 ≤ value reading.confidence)
    (hle' : value reading.confidence ≤ 1)
    (hsilent : (reading.score == 0.0) = true → reading.confidence = 0.0) : reading.InBounds where
  score_defined := isNaN_of_isFinite hscore
  score_ge := by rwa [le_iff isFinite_neg_one hscore, value_neg_one]
  score_le := by rwa [le_iff hscore isFinite_one, value_one]
  confidence_defined := isNaN_of_isFinite hconfidence
  confidence_ge := by rwa [le_iff isFinite_zero hconfidence, value_zero]
  confidence_le := by rwa [le_iff hconfidence isFinite_one, value_one]
  silent := hsilent

theorem InBounds.score_finite (h : reading.InBounds) : reading.score.isFinite = true :=
  isFinite_of_between isFinite_neg_one isFinite_one h.score_ge h.score_le

theorem InBounds.confidence_finite (h : reading.InBounds) :
    reading.confidence.isFinite = true :=
  isFinite_of_between isFinite_zero isFinite_one h.confidence_ge h.confidence_le

theorem InBounds.abs_score_le (h : reading.InBounds) : |value reading.score| ≤ 1 := by
  have hge := h.score_ge
  have hle := h.score_le
  rw [le_iff isFinite_neg_one h.score_finite, value_neg_one] at hge
  rw [le_iff h.score_finite isFinite_one, value_one] at hle
  exact abs_le.2 ⟨hge, hle⟩

theorem InBounds.confidence_nonneg (h : reading.InBounds) : 0 ≤ value reading.confidence := by
  have hge := h.confidence_ge
  rwa [le_iff isFinite_zero h.confidence_finite, value_zero] at hge

theorem InBounds.abs_confidence_le (h : reading.InBounds) : |value reading.confidence| ≤ 1 := by
  have hle := h.confidence_le
  rw [le_iff h.confidence_finite isFinite_one, value_one] at hle
  rwa [abs_of_nonneg h.confidence_nonneg]

private theorem silent_inBounds (reason : String) : (silent reason).InBounds := by
  apply InBounds.of_values <;> simp [silent]

theorem bounded_inBounds (score confidence : Float) (reason : String) :
    (bounded score confidence reason).InBounds := by
  have hscore : (bounded score confidence reason).score = 0.0 ∨ score.isFinite = true ∧
      (bounded score confidence reason).score = FloatOrder.clamp (-1.0) 1.0 score := by
    simp only [bounded]
    by_cases h : score.isFinite = true
    · right
      exact ⟨h, if_pos h⟩
    · left
      exact if_neg h
  have hsilent : (bounded score confidence reason).confidence =
      if ((bounded score confidence reason).score == 0.0 || !confidence.isFinite) = true then 0.0
      else FloatOrder.clamp 0.0 1.0 confidence := rfl
  have hconfidence : (bounded score confidence reason).confidence = 0.0 ∨
      confidence.isFinite = true ∧
        (bounded score confidence reason).confidence = FloatOrder.clamp 0.0 1.0 confidence := by
    rw [hsilent]
    by_cases h : ((bounded score confidence reason).score == 0.0 || !confidence.isFinite) = true
    · left
      exact if_pos h
    · right
      rw [if_neg h]
      simp only [Bool.or_eq_true, not_or, Bool.not_eq_true', Bool.not_eq_false] at h
      exact ⟨h.2, rfl⟩
  obtain ⟨hfinite, hge, hle⟩ :=
    between_of_clamped isFinite_neg_one isFinite_one (by simp) (by simp) hscore
  obtain ⟨hfinite', hge', hle'⟩ :=
    between_of_clamped isFinite_zero isFinite_one (by simp) (by simp) hconfidence
  rw [value_neg_one] at hge
  rw [value_one] at hle hle'
  apply InBounds.of_values hfinite hge hle hfinite' hge' hle'
  intro hzero
  rw [hsilent, hzero, Bool.true_or, if_pos rfl]

theorem InBounds.ite {p : Prop} [Decidable p] {a b : Reading} (ha : a.InBounds) (hb : b.InBounds) :
    (if p then a else b).InBounds := by
  by_cases h : p
  · rwa [if_pos h]
  · rwa [if_neg h]

/-- The reading is silent or has a score and a confidence, whatever the words. -/
inductive Tells : Reading → Option (Float × Float) → Prop
  | silent (reason : String) : Tells (.silent reason) none
  | bounded (score confidence : Float) (reason : String) :
    Tells (.bounded score confidence reason) (some (score, confidence))

theorem Tells.ite {p : Prop} [Decidable p] {a b : Reading} {opinion opinion' : Option (Float × Float)}
    (h : a.Tells opinion) (h' : b.Tells opinion') :
    (if p then a else b).Tells (if p then opinion else opinion') := by
  split
  · exact h
  · exact h'

end Reading

open Reading

private theorem TradeConcentration.read_inBounds (settings : TradeConcentrationSettings)
    (window : Span) (tape : Tape) : (TradeConcentration.read settings window tape).InBounds := by
  apply InBounds.ite (silent_inBounds _)
  apply InBounds.ite (silent_inBounds _)
  apply InBounds.ite (silent_inBounds _)
  apply bounded_inBounds

private theorem FlowAsymmetry.read_inBounds (settings : FlowAsymmetrySettings) (window : Span)
    (tape : Tape) : (FlowAsymmetry.read settings window tape).InBounds := by
  apply InBounds.ite (silent_inBounds _)
  split
  · apply InBounds.ite (silent_inBounds _)
    apply bounded_inBounds
  · apply silent_inBounds

private theorem SpreadVelocity.readFit_inBounds (settings : SpreadVelocitySettings)
    (first last : SpreadPoint) (fit : Stats.LinearFit Float) :
    (SpreadVelocity.readFit settings first last fit).InBounds := by
  apply InBounds.ite (silent_inBounds _)
  apply InBounds.ite (silent_inBounds _)
  apply bounded_inBounds

private theorem SpreadVelocity.read_inBounds (settings : SpreadVelocitySettings) (window : Span)
    (tape : Tape) : (SpreadVelocity.read settings window tape).InBounds := by
  apply InBounds.ite (silent_inBounds _)
  split
  · split
    · apply SpreadVelocity.readFit_inBounds
    · apply silent_inBounds
  · apply silent_inBounds

private theorem VolumeDivergence.readSurge_inBounds (settings : VolumeDivergenceSettings)
    (side : Side) (recent baseline ratio move : Float) :
    (VolumeDivergence.readSurge settings side recent baseline ratio move).InBounds := by
  apply InBounds.ite (silent_inBounds _)
  apply InBounds.ite (silent_inBounds _)
  apply bounded_inBounds

private theorem VolumeDivergence.read_inBounds (settings : VolumeDivergenceSettings)
    (window baselineWindow : Span) (tape : Tape) :
    (VolumeDivergence.read settings window baselineWindow tape).InBounds := by
  apply InBounds.ite (silent_inBounds _)
  apply InBounds.ite (silent_inBounds _)
  apply VolumeDivergence.readSurge_inBounds

private theorem TradeClustering.readBurst_inBounds (settings : TradeClusteringSettings)
    (burst : Burst) : (TradeClustering.readBurst settings burst).InBounds := by
  apply InBounds.ite (silent_inBounds _)
  apply bounded_inBounds

private theorem TradeClustering.read_inBounds (settings : TradeClusteringSettings) (window : Span)
    (tape : Tape) : (TradeClustering.read settings window tape).InBounds := by
  apply InBounds.ite (silent_inBounds _)
  split
  · apply TradeClustering.readBurst_inBounds
  · apply silent_inBounds

private theorem TradeImbalance.read_inBounds (settings : TradeImbalanceSettings) (window : Span)
    (tape : Tape) : (TradeImbalance.read settings window tape).InBounds := by
  apply InBounds.ite (silent_inBounds _)
  apply InBounds.ite (silent_inBounds _)
  apply InBounds.ite (silent_inBounds _)
  apply bounded_inBounds

namespace Signal

theorem readWithin_inBounds (signal : Signal) (tape : Tape) (window baseline : Span) :
    (signal.readWithin tape window baseline).InBounds := by
  cases signal with
  | tradeConcentration => apply TradeConcentration.read_inBounds
  | flowAsymmetry => apply FlowAsymmetry.read_inBounds
  | spreadVelocity => apply SpreadVelocity.read_inBounds
  | volumeDivergence => apply VolumeDivergence.read_inBounds
  | tradeClustering => apply TradeClustering.read_inBounds
  | tradeImbalance => apply TradeImbalance.read_inBounds

theorem inBounds_of_read {signal : Signal} {tape : Tape} {reading : Reading}
    (h : signal.read tape = .ok reading) : reading.InBounds := by
  obtain ⟨windows, -, hreading⟩ := bind_ok_iff.1 h
  obtain rfl := pure_ok_iff.1 hreading
  apply readWithin_inBounds

/-- Every answer of every signal is in bounds, whatever the settings and the tape are, and so is every
reading that is built from a score and a confidence. -/
theorem readings_stay_in_bounds :
    (∀ (signal : Signal) (tape : Tape) (reading : Reading),
      signal.read tape = .ok reading → reading.InBounds) ∧
    ∀ (score confidence : Float) (reason : String),
      (Reading.bounded score confidence reason).InBounds :=
  ⟨fun _ _ _ => inBounds_of_read, bounded_inBounds⟩

/-- A surge with a price that stands still where no move at all is allowed: the confidence is the
undefined quotient of two zeros. -/
theorem readings_stay_in_bounds_of_zero_move :
    let signal : Signal := .volumeDivergence
      { windowSecs := 60, minTrades := 1, maxPriceMoveCents := 0.0 }
    let tape : Tape := { Tape.empty "RAIN" 0 with
      records := [.quote ⟨"RAIN", 0, 41, 40, 42, 0, 0⟩,
        .quote ⟨"RAIN", 240000, 41, 40, 42, 10, 100⟩, .trade ⟨"RAIN", 270000, .no, 10, 40⟩,
        .quote ⟨"RAIN", 300000, 41, 40, 42, 90, 9000⟩]
      latest := some 300000 }
    ∃ reading, signal.read tape = .ok reading ∧ reading.fired = true ∧ reading.confidence = 0.0 ∧
      reading.InBounds := by
  intro signal tape
  have hread : ∃ reading, signal.read tape = .ok reading ∧
      reading.fired = true ∧ reading.confidence = 0.0 :=
    exists_ok_of_any (by decide +kernel)
  obtain ⟨reading, hread, hfired, hconfidence⟩ := hread
  exact ⟨reading, hread, hfired, hconfidence, readings_stay_in_bounds.1 signal tape reading hread⟩

end Signal

end SignalDesk
