import SignalDesk.Config.Document
import SignalDesk.Proofs.Config
import SignalDesk.Proofs.Float.Value

/-!
# The bounds of a configuration

A configuration is accepted exactly when every setting is within its bounds, said here of the numbers
that the settings stand for. Two settings of the divergence signal only have to be positive and are
accepted when they are undefined or infinite, which their documented bounds exclude.
-/

namespace SignalDesk

open FloatValue (value)

def yearSeconds : Nat := 365 * 24 * 60 * 60

/-- A window lasts at least a second and at most a year. -/
def IsWindow (seconds : UInt64) : Prop := 0 < seconds.toNat ∧ seconds.toNat ≤ yearSeconds

def IsNonnegative (x : Float) : Prop := x.isFinite = true ∧ 0 ≤ value x

def IsUnit (x : Float) : Prop := x.isFinite = true ∧ 0 ≤ value x ∧ value x ≤ 1

/-- The documented bound of a setting that has to be positive. -/
def IsPositive (x : Float) : Prop := x.isFinite = true ∧ 0 < value x

/-- What is accepted of such a setting. -/
def IsNotNonpositive (x : Float) : Prop := x.isNaN = true ∨ 0.0 < x

private theorem not_le_zero_iff {x : Float} : ¬ x ≤ 0.0 ↔ IsNotNonpositive x := by
  have hzero : (0.0 : Float).toModel.unpack = .zero .positive := rfl
  have hnan : x.isNaN = x.toModel.unpack.isNaN := rfl
  rw [IsNotNonpositive, FloatValue.le_iff_unpacked, FloatValue.lt_iff_unpacked, hnan, hzero]
  cases x.toModel.unpack with
  | notANumber => decide
  | infinity s => cases s <;> decide
  | zero s => cases s <;> decide
  | finite s m e hm =>
    cases s with
    | negative => exact iff_of_false (fun h => h rfl) (by rintro (h | h) <;> cases h)
    | positive => exact iff_of_true (fun h => by cases h) (.inr rfl)

private theorem isPositive_iff {x : Float} :
    IsPositive x ↔ IsNotNonpositive x ∧ x.isFinite = true := by
  constructor
  · rintro ⟨hfinite, hpos⟩
    exact ⟨.inr ((FloatValue.lt_iff FloatValue.isFinite_zero hfinite).2 hpos), hfinite⟩
  · rintro ⟨hnan | hpos, hfinite⟩
    · rw [FloatValue.isNaN_of_isFinite hfinite] at hnan
      cases hnan
    · exact ⟨hfinite, (FloatValue.lt_iff FloatValue.isFinite_zero hfinite).1 hpos⟩

namespace Check

def Pass (checks : List Check) : Prop := ∀ check ∈ checks, check.violation = none

instance (checks : List Check) : Decidable (Pass checks) :=
  inferInstanceAs (Decidable (∀ check ∈ checks, check.violation = none))

private theorem pass_append_iff {first second : List Check} :
    Pass (first ++ second) ↔ Pass first ∧ Pass second :=
  List.forall_mem_append

private theorem pass_cons_iff {check : Check} {checks : List Check} :
    Pass (check :: checks) ↔ check.violation = none ∧ Pass checks :=
  List.forall_mem_cons

private theorem pass_nil : Pass [] := List.forall_mem_nil _

variable {field : String}

private theorem amountPositive_none_iff {value : Decimal} :
    (amountPositive field value).violation = none ↔ 0 < value.toRat := by
  unfold amountPositive
  rw [ite_eq_right_iff, ← Decimal.toRat_zero, ← not_le, ← Decimal.le_iff_toRat]
  simp

private theorem percent_none_iff {value : Decimal} :
    (percent field value).violation = none ↔ 0 < value.toRat ∧ value.toRat ≤ 100 := by
  unfold percent
  rw [ite_eq_right_iff, Decimal.le_iff_toRat, Decimal.lt_iff_toRat, Decimal.toRat_zero,
    Decimal.toRat_hundred]
  simp

private theorem centsPositive_none_iff {value : Int64} :
    (centsPositive field value).violation = none ↔ 0 < value.toInt := by
  unfold centsPositive
  rw [ite_eq_right_iff, Int64.le_iff_toInt_le]
  simp

private theorem countPositive_none_iff {value : UInt64} :
    (countPositive field value).violation = none ↔ 0 < value.toNat := by
  unfold countPositive
  rw [ite_eq_right_iff, UInt64.le_iff_toNat_le]
  simp [Nat.pos_iff_ne_zero]

private theorem floatPositive_none_iff {x : Float} :
    (floatPositive field x).violation = none ↔ IsNotNonpositive x := by
  unfold floatPositive
  rw [ite_eq_right_iff, ← not_le_zero_iff]
  simp

private theorem isFiniteNonNegative_iff {x : Float} :
    isFiniteNonNegative x = true ↔ IsNonnegative x := by
  unfold isFiniteNonNegative
  rw [IsNonnegative, Bool.and_eq_true]
  apply and_congr_right
  intro hfinite
  rw [Bool.not_eq_true', decide_eq_false_iff_not, FloatValue.lt_iff hfinite FloatValue.isFinite_zero,
    FloatValue.value_zero, not_lt]

private theorem nonNegative_none_iff {x : Float} :
    (nonNegative field x).violation = none ↔ IsNonnegative x := by
  unfold nonNegative
  rw [← isFiniteNonNegative_iff, ite_eq_left_iff]
  simp

private theorem weight_none_iff {x : Float} :
    (weight field x).violation = none ↔ IsNonnegative x := by
  unfold weight
  rw [← isFiniteNonNegative_iff, ite_eq_left_iff]
  simp

private theorem isUnit_iff {x : Float} : isUnit x = true ↔ IsUnit x := by
  have hzero := FloatValue.isFinite_zero
  have hone := FloatValue.isFinite_one
  unfold isUnit
  rw [Bool.and_eq_true, decide_eq_true_iff, decide_eq_true_iff]
  constructor
  · rintro ⟨hlow, hhigh⟩
    have hfinite := FloatValue.isFinite_of_between hzero hone hlow hhigh
    rw [FloatValue.le_iff hzero hfinite, FloatValue.value_zero] at hlow
    rw [FloatValue.le_iff hfinite hone, FloatValue.value_one] at hhigh
    exact ⟨hfinite, hlow, hhigh⟩
  · rintro ⟨hfinite, hlow, hhigh⟩
    rw [FloatValue.le_iff hzero hfinite, FloatValue.le_iff hfinite hone, FloatValue.value_zero,
      FloatValue.value_one]
    exact ⟨hlow, hhigh⟩

private theorem unit_none_iff {x : Float} : (unit field x).violation = none ↔ IsUnit x := by
  unfold unit
  rw [← isUnit_iff, ite_eq_left_iff]
  simp

private theorem span_none_iff {seconds : UInt64} :
    (span field seconds).violation = none ↔ seconds.toNat ≤ yearSeconds := by
  have hmax : maxSpanSeconds.toNat = yearSeconds := rfl
  unfold span
  rw [ite_eq_right_iff, UInt64.lt_iff_toNat_lt, hmax]
  simp

private theorem minuteSeconds_le_iff {minutes : UInt64} :
    (minuteSeconds minutes).toNat ≤ yearSeconds ↔ minutes.toNat * 60 ≤ yearSeconds := by
  unfold minuteSeconds
  split
  · rename_i hfits
    have hproduct : (minutes * 60).toNat = minutes.toNat * 60 := Nat.mod_eq_of_lt hfits
    rw [hproduct]
  · rename_i hlong
    have hlarge : yearSeconds < UInt64.size := by decide
    exact iff_of_false (by decide) (by omega)

private theorem window_none_iff {seconds : UInt64} :
    (countPositive field seconds).violation = none ∧ (span field seconds).violation = none ↔
      IsWindow seconds := by
  rw [countPositive_none_iff, span_none_iff]
  rfl

private theorem baseline_none_iff {seconds baseline : UInt64} (h : IsWindow seconds) :
    (if baseline < seconds then some Violation.shortBaseline else none) = none ∧
        (span field baseline).violation = none ↔
      IsWindow baseline ∧ seconds.toNat ≤ baseline.toNat := by
  rw [span_none_iff, ite_eq_right_iff, UInt64.lt_iff_toNat_lt, IsWindow]
  have hpos := h.1
  constructor
  · rintro ⟨hshort, hlong⟩
    have hle : seconds.toNat ≤ baseline.toNat := not_lt.1 fun hlt => by cases hshort hlt
    exact ⟨⟨hpos.trans_le hle, hlong⟩, hle⟩
  · rintro ⟨⟨-, hlong⟩, hle⟩
    exact ⟨fun hlt => absurd hlt (not_lt.2 hle), hlong⟩

private theorem quiet_none_iff {gap quiet : Float} (hgap : IsNonnegative gap)
    (hquiet : IsNonnegative quiet) :
    (if quiet ≤ gap then some Violation.shortQuiet else none) = none ↔ value gap < value quiet := by
  rw [ite_eq_right_iff, FloatValue.le_iff hquiet.1 hgap.1]
  simp

end Check

structure PortfolioSettings.Bounds (s : PortfolioSettings) : Prop where
  startingBalance : 0 < s.startingBalance.toRat
  tradeSize : 0 < s.tradeSize.toRat
  drawdownHaltPercent : 0 < s.drawdownHaltPercent.toRat ∧ s.drawdownHaltPercent.toRat ≤ 100

structure PositionSettings.Bounds (s : PositionSettings) : Prop where
  takeProfitCents : 0 < s.takeProfitCents.toInt
  stopLossCents : 0 < s.stopLossCents.toInt
  timeStopMinutes : 0 < s.timeStopMinutes.toNat ∧ s.timeStopMinutes.toNat * 60 ≤ yearSeconds
  entryThreshold : IsUnit s.entryThreshold

structure ActivationSettings.Bounds (s : ActivationSettings) : Prop where
  dollarVolume : IsNonnegative s.dollarVolume
  windowSecs : IsWindow s.windowSecs

structure TradeConcentrationSettings.Bounds (s : TradeConcentrationSettings) : Prop where
  weight : IsNonnegative s.weight
  windowSecs : IsWindow s.windowSecs
  minTrades : 0 < s.minTrades.toNat
  concentrationThreshold : IsUnit s.concentrationThreshold

structure FlowAsymmetrySettings.Bounds (s : FlowAsymmetrySettings) : Prop where
  weight : IsNonnegative s.weight
  windowSecs : IsWindow s.windowSecs
  minTrades : 0 < s.minTrades.toNat
  asymmetryThreshold : IsNonnegative s.asymmetryThreshold

structure SpreadVelocitySettings.Bounds (s : SpreadVelocitySettings) : Prop where
  weight : IsNonnegative s.weight
  windowSecs : IsWindow s.windowSecs
  minSnapshots : 2 ≤ s.minSnapshots.toNat
  velocityThreshold : IsNonnegative s.velocityThreshold

/-- Two settings only have to be `positive`, whatever that means for a float. -/
structure VolumeDivergenceSettings.Bounds (positive : Float → Prop) (s : VolumeDivergenceSettings) :
    Prop where
  weight : IsNonnegative s.weight
  windowSecs : IsWindow s.windowSecs
  baselineWindowSecs : IsWindow s.baselineWindowSecs ∧ s.windowSecs.toNat ≤ s.baselineWindowSecs.toNat
  volumeMultiplier : positive s.volumeMultiplier
  maxPriceMoveCents : positive s.maxPriceMoveCents
  minTrades : 0 < s.minTrades.toNat

structure TradeClusteringSettings.Bounds (s : TradeClusteringSettings) : Prop where
  weight : IsNonnegative s.weight
  windowSecs : IsWindow s.windowSecs
  minBurstTrades : 0 < s.minBurstTrades.toNat
  burstGapSec : IsNonnegative s.burstGapSec
  quietThresholdSec : IsNonnegative s.quietThresholdSec ∧ value s.burstGapSec < value s.quietThresholdSec

structure TradeImbalanceSettings.Bounds (s : TradeImbalanceSettings) : Prop where
  weight : IsNonnegative s.weight
  windowSecs : IsWindow s.windowSecs
  minTrades : 0 < s.minTrades.toNat
  imbalanceThreshold : IsUnit s.imbalanceThreshold

structure SignalSettings.Bounds (positive : Float → Prop) (s : SignalSettings) : Prop where
  tradeConcentration : s.tradeConcentration.Bounds
  flowAsymmetry : s.flowAsymmetry.Bounds
  spreadVelocity : s.spreadVelocity.Bounds
  volumeDivergence : s.volumeDivergence.Bounds positive
  tradeClustering : s.tradeClustering.Bounds
  tradeImbalance : s.tradeImbalance.Bounds

structure Config.Bounds (positive : Float → Prop) (config : Config) : Prop where
  portfolio : config.portfolio.Bounds
  positions : config.positions.Bounds
  activation : config.activation.Bounds
  minSignals : 0 < config.composer.minSignals.toNat
  channelCapacity : 0 < config.engine.channelCapacity.toNat
  retentionMarginSecs : config.engine.retentionMarginSecs.toNat ≤ yearSeconds
  signals : config.signals.Bounds positive

open Check (Pass pass_append_iff pass_cons_iff pass_nil)

namespace PortfolioSettings

theorem pass_iff {s : PortfolioSettings} : Pass s.checks ↔ s.Bounds := by
  simp only [checks, pass_cons_iff, pass_nil, and_true, Check.amountPositive_none_iff,
    Check.percent_none_iff]
  constructor
  · rintro ⟨hbalance, hsize, hpercent⟩
    exact ⟨hbalance, hsize, hpercent⟩
  · intro h
    exact ⟨h.startingBalance, h.tradeSize, h.drawdownHaltPercent⟩

end PortfolioSettings

namespace PositionSettings

theorem pass_iff {s : PositionSettings} : Pass s.checks ↔ s.Bounds := by
  simp only [checks, pass_cons_iff, pass_nil, and_true, Check.centsPositive_none_iff,
    Check.countPositive_none_iff, Check.span_none_iff, Check.minuteSeconds_le_iff,
    Check.unit_none_iff]
  constructor
  · rintro ⟨hprofit, hloss, hpos, hlong, hentry⟩
    exact ⟨hprofit, hloss, ⟨hpos, hlong⟩, hentry⟩
  · intro h
    exact ⟨h.takeProfitCents, h.stopLossCents, h.timeStopMinutes.1, h.timeStopMinutes.2,
      h.entryThreshold⟩

end PositionSettings

namespace ActivationSettings

theorem pass_iff {s : ActivationSettings} : Pass s.checks ↔ s.Bounds := by
  simp only [checks, pass_cons_iff, pass_nil, and_true, Check.nonNegative_none_iff,
    Check.window_none_iff]
  constructor
  · rintro ⟨hvolume, hwindow⟩
    exact ⟨hvolume, hwindow⟩
  · intro h
    exact ⟨h.dollarVolume, h.windowSecs⟩

end ActivationSettings

namespace TradeConcentrationSettings

theorem pass_iff {s : TradeConcentrationSettings} : Pass s.checks ↔ s.Bounds := by
  simp only [checks, pass_cons_iff, pass_nil, and_true, Check.weight_none_iff,
    Check.countPositive_none_iff, Check.span_none_iff, Check.unit_none_iff]
  constructor
  · rintro ⟨hweight, hpos, hlong, htrades, hthreshold⟩
    exact ⟨hweight, ⟨hpos, hlong⟩, htrades, hthreshold⟩
  · intro h
    exact ⟨h.weight, h.windowSecs.1, h.windowSecs.2, h.minTrades, h.concentrationThreshold⟩

end TradeConcentrationSettings

namespace FlowAsymmetrySettings

theorem pass_iff {s : FlowAsymmetrySettings} : Pass s.checks ↔ s.Bounds := by
  simp only [checks, pass_cons_iff, pass_nil, and_true, Check.weight_none_iff,
    Check.countPositive_none_iff, Check.span_none_iff, Check.nonNegative_none_iff]
  constructor
  · rintro ⟨hweight, hpos, hlong, htrades, hthreshold⟩
    exact ⟨hweight, ⟨hpos, hlong⟩, htrades, hthreshold⟩
  · intro h
    exact ⟨h.weight, h.windowSecs.1, h.windowSecs.2, h.minTrades, h.asymmetryThreshold⟩

end FlowAsymmetrySettings

namespace SpreadVelocitySettings

theorem pass_iff {s : SpreadVelocitySettings} : Pass s.checks ↔ s.Bounds := by
  have hsnapshots : (if s.minSnapshots < 2 then some Violation.fewSnapshots else none) = none ↔
      2 ≤ s.minSnapshots.toNat := by
    rw [ite_eq_right_iff, UInt64.lt_iff_toNat_lt]
    simp [Nat.succ_le_iff]
  simp only [checks, pass_cons_iff, pass_nil, and_true, Check.weight_none_iff,
    Check.countPositive_none_iff, Check.span_none_iff, hsnapshots, Check.nonNegative_none_iff]
  constructor
  · rintro ⟨hweight, hpos, hlong, htrades, hthreshold⟩
    exact ⟨hweight, ⟨hpos, hlong⟩, htrades, hthreshold⟩
  · intro h
    exact ⟨h.weight, h.windowSecs.1, h.windowSecs.2, h.minSnapshots, h.velocityThreshold⟩

end SpreadVelocitySettings

namespace VolumeDivergenceSettings

theorem pass_iff {s : VolumeDivergenceSettings} : Pass s.checks ↔ s.Bounds IsNotNonpositive := by
  simp only [checks, pass_cons_iff, pass_nil, and_true, Check.weight_none_iff,
    Check.floatPositive_none_iff]
  constructor
  · rintro ⟨hweight, hpos, hlong, hshort, hbaseline, hmultiplier, hmove, htrades⟩
    have hwindow := Check.window_none_iff.1 ⟨hpos, hlong⟩
    exact ⟨hweight, hwindow, (Check.baseline_none_iff hwindow).1 ⟨hshort, hbaseline⟩, hmultiplier, hmove,
      Check.countPositive_none_iff.1 htrades⟩
  · intro h
    obtain ⟨hpos, hlong⟩ := Check.window_none_iff.2 h.windowSecs
    obtain ⟨hshort, hbaseline⟩ := (Check.baseline_none_iff h.windowSecs).2 h.baselineWindowSecs
    exact ⟨h.weight, hpos, hlong, hshort, hbaseline, h.volumeMultiplier, h.maxPriceMoveCents,
      Check.countPositive_none_iff.2 h.minTrades⟩

private theorem bounds_iff {s : VolumeDivergenceSettings} :
    s.Bounds IsPositive ↔ s.Bounds IsNotNonpositive ∧
      s.volumeMultiplier.isFinite = true ∧ s.maxPriceMoveCents.isFinite = true := by
  constructor
  · intro h
    obtain ⟨hmultiplier, hfinite⟩ := isPositive_iff.1 h.volumeMultiplier
    obtain ⟨hmove, hfinite'⟩ := isPositive_iff.1 h.maxPriceMoveCents
    exact ⟨{ h with volumeMultiplier := hmultiplier, maxPriceMoveCents := hmove }, hfinite, hfinite'⟩
  · rintro ⟨h, hfinite, hfinite'⟩
    exact { h with
      volumeMultiplier := isPositive_iff.2 ⟨h.volumeMultiplier, hfinite⟩
      maxPriceMoveCents := isPositive_iff.2 ⟨h.maxPriceMoveCents, hfinite'⟩ }

end VolumeDivergenceSettings

namespace TradeClusteringSettings

theorem pass_iff {s : TradeClusteringSettings} : Pass s.checks ↔ s.Bounds := by
  simp only [checks, pass_cons_iff, pass_nil, and_true, Check.weight_none_iff,
    Check.countPositive_none_iff, Check.span_none_iff, Check.nonNegative_none_iff]
  constructor
  · rintro ⟨hweight, hpos, hlong, htrades, hgap, hquiet, hlonger⟩
    exact ⟨hweight, ⟨hpos, hlong⟩, htrades, hgap, hquiet, (Check.quiet_none_iff hgap hquiet).1 hlonger⟩
  · intro h
    obtain ⟨hquiet, hlonger⟩ := h.quietThresholdSec
    exact ⟨h.weight, h.windowSecs.1, h.windowSecs.2, h.minBurstTrades, h.burstGapSec, hquiet,
      (Check.quiet_none_iff h.burstGapSec hquiet).2 hlonger⟩

end TradeClusteringSettings

namespace TradeImbalanceSettings

theorem pass_iff {s : TradeImbalanceSettings} : Pass s.checks ↔ s.Bounds := by
  simp only [checks, pass_cons_iff, pass_nil, and_true, Check.weight_none_iff,
    Check.countPositive_none_iff, Check.span_none_iff, Check.unit_none_iff]
  constructor
  · rintro ⟨hweight, hpos, hlong, htrades, hthreshold⟩
    exact ⟨hweight, ⟨hpos, hlong⟩, htrades, hthreshold⟩
  · intro h
    exact ⟨h.weight, h.windowSecs.1, h.windowSecs.2, h.minTrades, h.imbalanceThreshold⟩

end TradeImbalanceSettings

namespace SignalSettings

theorem pass_iff {s : SignalSettings} : Pass s.checks ↔ s.Bounds IsNotNonpositive := by
  simp only [checks, pass_append_iff, TradeConcentrationSettings.pass_iff,
    FlowAsymmetrySettings.pass_iff, SpreadVelocitySettings.pass_iff, VolumeDivergenceSettings.pass_iff,
    TradeClusteringSettings.pass_iff, TradeImbalanceSettings.pass_iff]
  constructor
  · rintro ⟨⟨⟨⟨⟨hconcentration, hflow⟩, hspread⟩, hvolume⟩, hclustering⟩, himbalance⟩
    exact ⟨hconcentration, hflow, hspread, hvolume, hclustering, himbalance⟩
  · intro h
    exact ⟨⟨⟨⟨⟨h.tradeConcentration, h.flowAsymmetry⟩, h.spreadVelocity⟩, h.volumeDivergence⟩,
      h.tradeClustering⟩, h.tradeImbalance⟩

end SignalSettings

namespace Config

theorem fault?_eq_none_iff {config : Config} : config.fault? = none ↔ Pass config.checks := by
  simp only [fault?, List.findSome?_eq_none_iff, Option.map_eq_none_iff, Pass]

theorem pass_iff {config : Config} : Pass config.checks ↔ config.Bounds IsNotNonpositive := by
  simp only [checks, pass_append_iff, pass_cons_iff, pass_nil, and_true, PortfolioSettings.pass_iff,
    PositionSettings.pass_iff, ActivationSettings.pass_iff, SignalSettings.pass_iff,
    Check.countPositive_none_iff, Check.span_none_iff]
  constructor
  · rintro ⟨⟨⟨⟨hportfolio, hpositions⟩, hactivation⟩, hsignals, hcapacity, hmargin⟩, hrest⟩
    exact ⟨hportfolio, hpositions, hactivation, hsignals, hcapacity, hmargin, hrest⟩
  · intro h
    exact ⟨⟨⟨⟨h.portfolio, h.positions⟩, h.activation⟩, h.minSignals, h.channelCapacity,
      h.retentionMarginSecs⟩, h.signals⟩

theorem validate_eq_ok_iff {config : Config} :
    config.validate = .ok config ↔ config.Bounds IsNotNonpositive := by
  rw [← pass_iff, ← fault?_eq_none_iff, validate]
  cases config.fault? <;> simp

private theorem bounds_iff {config : Config} :
    config.Bounds IsPositive ↔ config.Bounds IsNotNonpositive ∧
      config.signals.volumeDivergence.volumeMultiplier.isFinite = true ∧
      config.signals.volumeDivergence.maxPriceMoveCents.isFinite = true := by
  constructor
  · intro h
    obtain ⟨hvolume, hfinite⟩ := VolumeDivergenceSettings.bounds_iff.1 h.signals.volumeDivergence
    exact ⟨{ h with signals := { h.signals with volumeDivergence := hvolume } }, hfinite⟩
  · rintro ⟨h, hfinite⟩
    have hvolume := VolumeDivergenceSettings.bounds_iff.2 ⟨h.signals.volumeDivergence, hfinite⟩
    exact { h with signals := { h.signals with volumeDivergence := hvolume } }

/-- The settings that are floats, but for the two that only have to be positive. -/
def boundedFloats (config : Config) : List Float :=
  let s := config.signals
  [config.positions.entryThreshold, config.activation.dollarVolume, s.tradeConcentration.weight,
    s.tradeConcentration.concentrationThreshold, s.flowAsymmetry.weight,
    s.flowAsymmetry.asymmetryThreshold, s.spreadVelocity.weight, s.spreadVelocity.velocityThreshold,
    s.volumeDivergence.weight, s.tradeClustering.weight, s.tradeClustering.burstGapSec,
    s.tradeClustering.quietThresholdSec, s.tradeImbalance.weight, s.tradeImbalance.imbalanceThreshold]

/-- Every setting that is a float. -/
def floats (config : Config) : List Float :=
  config.signals.volumeDivergence.volumeMultiplier ::
    config.signals.volumeDivergence.maxPriceMoveCents :: config.boundedFloats

theorem Bounds.isFinite {positive : Float → Prop} {config : Config} (h : config.Bounds positive) :
    ∀ x ∈ config.boundedFloats, x.isFinite = true := by
  simp only [boundedFloats, List.forall_mem_cons, List.not_mem_nil, false_imp_iff, forall_const,
    and_true]
  exact ⟨h.positions.entryThreshold.1, h.activation.dollarVolume.1,
    h.signals.tradeConcentration.weight.1, h.signals.tradeConcentration.concentrationThreshold.1,
    h.signals.flowAsymmetry.weight.1, h.signals.flowAsymmetry.asymmetryThreshold.1,
    h.signals.spreadVelocity.weight.1, h.signals.spreadVelocity.velocityThreshold.1,
    h.signals.volumeDivergence.weight.1, h.signals.tradeClustering.weight.1,
    h.signals.tradeClustering.burstGapSec.1, h.signals.tradeClustering.quietThresholdSec.1.1,
    h.signals.tradeImbalance.weight.1, h.signals.tradeImbalance.imbalanceThreshold.1⟩

/--
A configuration is accepted exactly when it is within the bounds that let the multiplier and the
price move of the divergence signal be undefined or infinite. It is within its documented bounds
exactly when it is accepted and none of its floats is undefined or infinite, and all floats but
those two of an accepted one are finite.
-/
theorem accepted_iff_bounds (config : Config) :
    (config.validate = .ok config ↔ config.Bounds IsNotNonpositive) ∧
      (config.Bounds IsPositive ↔
        config.validate = .ok config ∧ ∀ x ∈ config.floats, x.isFinite = true) ∧
      (config.validate = .ok config → ∀ x ∈ config.boundedFloats, x.isFinite = true) := by
  refine ⟨validate_eq_ok_iff, ?_, fun h => (validate_eq_ok_iff.1 h).isFinite⟩
  rw [validate_eq_ok_iff, bounds_iff, floats, List.forall_mem_cons, List.forall_mem_cons]
  constructor
  · rintro ⟨h, hmultiplier, hmove⟩
    exact ⟨h, hmultiplier, hmove, h.isFinite⟩
  · rintro ⟨h, hmultiplier, hmove, -⟩
    exact ⟨h, hmultiplier, hmove⟩

/-- The documented bounds do not decide: an undefined multiplier is accepted. -/
theorem undefined_multiplier_accepted :
    ¬ ∀ config : Config, config.validate = .ok config ↔ config.Bounds IsPositive := by
  intro h
  let undefined : Config :=
    { signals := { volumeDivergence := { volumeMultiplier := Float.ofBits 0x7ff8000000000000 } } }
  have hfault : undefined.fault? = none := by decide +kernel
  have haccepted : undefined.validate = .ok undefined := by
    rw [validate, hfault]
  have hfinite := ((h undefined).1 haccepted).signals.volumeDivergence.volumeMultiplier.1
  revert hfinite
  decide +kernel

end Config

end SignalDesk
