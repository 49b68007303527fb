import SignalDesk.Proofs.Fusion

/-!
# Composites of valid configurations

The score of a composite lies between the scores that were heard and its confidence between their
confidences, but for the tolerance. This holds for every tape as long as the total of the weights is
in range. A valid configuration bounds each weight but not their total: two weights of 1e308
overflow, and the score of the composite is undefined.
-/

namespace SignalDesk

open FloatValue

private theorem Reading.InBounds.fusible {reading : Reading} {weight : Float} (h : reading.InBounds)
    (hweight : weight.isFinite = true) (byConfidence : Bool) :
    WeightedReading.Fusible byConfidence ⟨weight, reading.score, reading.confidence⟩ := by
  constructor
  · exact h.score_finite
  · exact h.abs_score_le
  · exact h.confidence_finite
  · exact h.confidence_nonneg
  · exact h.abs_confidence_le
  · cases byConfidence with
    | false => exact hweight
    | true => exact (Fused.weighted_near hweight h.confidence_finite h.abs_confidence_le le_rfl).finite

namespace Composer

/-- The readings of a composite that its means are taken of. -/
def voices (composer : Composer) (composite : Composite) : List WeightedReading :=
  Fused.heard composer.settings.confidenceWeighting
    (composer.rows (composite.details.map Prod.snd))

def voicesTotal (composer : Composer) (composite : Composite) : ℚ :=
  Fused.exactTotal composer.settings.confidenceWeighting (composer.voices composite)

private theorem readings_of_compose {composer : Composer} {readings : List Reading}
    (h : composer.signals.length = readings.length) (instrument : String) (ts : Timestamp) :
    (composer.compose instrument ts readings).details.map Prod.snd = readings := by
  apply List.map_snd_zip
  rw [List.length_map, h]

private theorem rows_fusible {config : Config} (hvalid : config.fault? = none) {tape : Tape}
    {readings : List Reading} (byConfidence : Bool)
    (hreadings : List.Forall₂ (fun signal reading => signal.read tape = .ok reading)
      (ofConfig config).signals readings) :
    ∀ row ∈ (ofConfig config).rows readings, row.Fusible byConfidence := by
  intro row hrow
  unfold rows at hrow
  rw [← List.map_uncurry_zip_eq_zipWith] at hrow
  obtain ⟨⟨signal, reading⟩, hpair, rfl⟩ := List.mem_map.1 hrow
  have hread := (List.forall₂_iff_zip.1 hreadings).2 hpair
  have hweight := Config.weight_isFinite_of_enabled hvalid (List.of_mem_zip hpair).1
  exact (Signal.inBounds_of_read hread).fusible hweight byConfidence

/-- Whatever a valid configuration reads: a composite without a voice is empty, and the means of all
others lie between the extremes of their voices, unless the total of the weights is out of range. -/
theorem composite_between_extremes {config : Config} (hvalid : config.fault? = none)
    {tape : Tape} {composite : Composite}
    (hevaluate : (ofConfig config).evaluate tape = .ok (some composite)) :
    ((ofConfig config).voices composite = [] →
      composite.score = 0.0 ∧ composite.confidence = 0.0 ∧ composite.contributing = 0) ∧
    ((ofConfig config).voices composite ≠ [] →
      minTotal ≤ (ofConfig config).voicesTotal composite →
      (ofConfig config).voicesTotal composite ≤ maxTotal →
      composite.contributing = ((ofConfig config).voices composite).length ∧
      Fused.IsBetween WeightedReading.score ((ofConfig config).voices composite) composite.score ∧
      Fused.IsBetween WeightedReading.confidence ((ofConfig config).voices composite)
        composite.confidence) := by
  obtain ⟨ts, readings, -, hreadings, rfl⟩ := evaluate_some hevaluate
  have hlength := hreadings.length_eq
  have hfusible := rows_fusible hvalid config.composer.confidenceWeighting hreadings
  have hfew : ((ofConfig config).rows readings).length ≤ maxTerms := by
    unfold rows
    rw [List.length_zipWith]
    exact (min_le_left _ _).trans (Config.length_enabled_le config.signals)
  unfold voicesTotal voices
  rw [readings_of_compose hlength]
  constructor
  · intro hnone
    have hempty := Fused.ofRows_of_unheard hfusible hnone
    unfold compose
    simp only [ofConfig] at hempty ⊢
    rw [hempty]
    exact ⟨rfl, rfl, rfl⟩
  · intro hne hlow hhigh
    exact Fused.ofRows_isBetween hfusible hfew hne hlow hhigh

/-- Two signals with different weights, scores and confidences. -/
theorem composite_between_extremes_of_two_voices :
    let config : Config := {
      activation := { dollarVolume := 0.0 }
      composer := { confidenceWeighting := true }
      signals := {
        flowAsymmetry := { enabled := true, weight := 3.0, minTrades := 1 }
        tradeImbalance := { weight := 1.0, minTrades := 1 } } }
    let composer := ofConfig config
    let tape := ((Tape.empty "RAIN" 360000).update (.trade ⟨"RAIN", 0, .yes, 30, 40⟩)).update
      (.trade ⟨"RAIN", 1000, .no, 10, 40⟩)
    ∃ composite, composer.evaluate tape = .ok (some composite) ∧ composite.contributing = 2 ∧
      Fused.IsBetween WeightedReading.score (composer.voices composite) composite.score ∧
      Fused.IsBetween WeightedReading.confidence (composer.voices composite) composite.confidence := by
  intro config composer tape
  have hrun : ∃ composite, composer.evaluate tape = .ok (some composite) ∧
      (composer.voices composite).length = 2 ∧ minTotal ≤ composer.voicesTotal composite ∧
      composer.voicesTotal composite ≤ maxTotal :=
    exists_some_of_any (by decide +kernel)
  obtain ⟨composite, hevaluate, hlength, hlow, hhigh⟩ := hrun
  have hne : composer.voices composite ≠ [] := List.ne_nil_of_length_pos (by omega)
  have hvalid : config.fault? = none := by decide +kernel
  obtain ⟨hcount, hbetween⟩ := (composite_between_extremes hvalid hevaluate).2 hne hlow hhigh
  exact ⟨composite, hevaluate, hcount.trans hlength, hbetween⟩

/-- Weights out of range: the total of two overflows, and a single one is too small for its product
with a score. -/
theorem composite_astray_although_valid :
    let huge : Config := {
      activation := { dollarVolume := 0.0 }
      composer := { minSignals := 1 }
      signals := {
        tradeConcentration := { enabled := true, weight := 1e308, minTrades := 1 }
        tradeImbalance := { weight := 1e308, minTrades := 1 } } }
    let tiny : Config := {
      activation := { dollarVolume := 0.0 }
      composer := { minSignals := 1 }
      signals := { tradeImbalance := { weight := 5e-324, minTrades := 1 } } }
    let tape := (Tape.empty "RAIN" 360000).update (.trade ⟨"RAIN", 0, .yes, 100, 40⟩)
    let later := tape.update (.trade ⟨"RAIN", 1000, .no, 10, 40⟩)
    (huge.fault? = none ∧ ∃ composite, (ofConfig huge).evaluate tape = .ok (some composite) ∧
      composite.contributing = 2 ∧ ((ofConfig huge).voices composite).length = 2 ∧
      composite.score.isNaN = true ∧ composite.confidence.isNaN = true) ∧
    tiny.fault? = none ∧ ∃ composite, (ofConfig tiny).evaluate later = .ok (some composite) ∧
      composite.contributing = 1 ∧ ((ofConfig tiny).voices composite).length = 1 ∧
      ¬ Fused.IsBetween WeightedReading.score ((ofConfig tiny).voices composite) composite.score := by
  intro huge tiny tape later
  constructor
  · have hfault : huge.fault? = none := by decide +kernel
    exact ⟨hfault, exists_some_of_any (by decide +kernel)⟩
  · have hfault : tiny.fault? = none := by decide +kernel
    exact ⟨hfault, exists_some_of_any (by decide +kernel)⟩

end Composer

end SignalDesk
