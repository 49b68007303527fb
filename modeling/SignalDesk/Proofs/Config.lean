import SignalDesk.Composite.Composer
import SignalDesk.Config.Validate
import SignalDesk.Proofs.Act
import SignalDesk.Proofs.Decimal.Value

/-!
# Valid configurations

What the checks of a configuration rule out: amounts that are not positive, moves that are not
positive and spans beyond a year. The spans of a valid configuration are all in range, and so is the
sum of any two.
-/

namespace SignalDesk

def maxSpan : Span := 31536000000

namespace Span

theorem check?_of_le {span : Int} (hnonneg : 0 ≤ span) (hle : span ≤ 2 * maxSpan) :
    check? span = some span := by
  rw [check?, if_pos]
  unfold longestSpan
  unfold maxSpan Span at hle
  omega

theorem toInt_toInt64 {count : UInt64} (h : count.toNat ≤ 31536000) :
    count.toInt64.toInt = count.toNat :=
  BitVec.toInt_eq_toNat_of_lt (by
    change 2 * count.toNat < 2 ^ 64
    omega)

theorem ofSeconds?_eq {seconds : UInt64} (h : seconds ≤ maxSpanSeconds) :
    ofSeconds? seconds = some (seconds.toNat * 1000 : Int) := by
  have hmax : maxSpanSeconds.toNat = 31536000 := rfl
  rw [UInt64.le_iff_toNat_le, hmax] at h
  have hle : (seconds.toNat * 1000 : Int) ≤ 31536000000 := by omega
  rw [ofSeconds?, toInt_toInt64 h, check?_of_le (by omega) (Int.le_trans hle (by decide))]

private theorem ofSeconds?_of_le {seconds : UInt64} (h : seconds ≤ maxSpanSeconds) :
    ∃ span : Span, ofSeconds? seconds = some span ∧ 0 ≤ span ∧ span ≤ maxSpan := by
  have hspan := ofSeconds?_eq h
  have hmax : maxSpanSeconds.toNat = 31536000 := rfl
  rw [UInt64.le_iff_toNat_le, hmax] at h
  have hnonneg : (0 : Int) ≤ seconds.toNat * 1000 := by omega
  have hle : (seconds.toNat * 1000 : Int) ≤ 31536000000 := by omega
  exact ⟨_, hspan, hnonneg, hle⟩

theorem minutes_le {minutes : UInt64} (h : Check.minuteSeconds minutes ≤ maxSpanSeconds) :
    minutes.toNat * 60 ≤ 31536000 := by
  have hmax : maxSpanSeconds.toNat = 31536000 := rfl
  rw [UInt64.le_iff_toNat_le, hmax] at h
  unfold Check.minuteSeconds at h
  split at h
  · rename_i hfits
    have hproduct : (minutes * 60).toNat = minutes.toNat * 60 := Nat.mod_eq_of_lt hfits
    rwa [hproduct] at h
  · exact absurd h (by decide)

theorem ofMinutes?_of_le {minutes : UInt64} (h : Check.minuteSeconds minutes ≤ maxSpanSeconds) :
    ofMinutes? minutes = some (minutes.toNat * 60000 : Int) := by
  have hle := minutes_le h
  have hbounds : 0 ≤ (minutes.toNat * 60000 : Int) ∧ (minutes.toNat * 60000 : Int) ≤ 31536000000 := by
    omega
  rw [ofMinutes?, toInt_toInt64 (by omega), check?_of_le hbounds.1 (Int.le_trans hbounds.2 (by decide))]

end Span

namespace Config

private theorem check_of_fault?_eq_none {config : Config} (h : config.fault? = none) {check : Check}
    (hcheck : check ∈ config.checks) : check.violation = none := by
  have hnone := List.findSome?_eq_none_iff.1 h check hcheck
  exact Option.map_eq_none_iff.1 hnone

theorem span_le_of_mem {config : Config} (h : config.fault? = none) (field : String)
    {seconds : UInt64} (hmem : .span field seconds ∈ config.checks) : seconds ≤ maxSpanSeconds := by
  have hcheck := check_of_fault?_eq_none h hmem
  rw [Check.span] at hcheck
  split at hcheck
  · cases hcheck
  · rename_i hle
    exact UInt64.not_lt.1 hle

private theorem amount_pos_of_mem {config : Config} (h : config.fault? = none) (field : String)
    {value : Decimal} (hmem : .amountPositive field value ∈ config.checks) : 0 < value.toRat := by
  have hcheck := check_of_fault?_eq_none h hmem
  rw [Check.amountPositive] at hcheck
  split at hcheck
  · cases hcheck
  · rename_i hle
    rwa [Decimal.le_iff_toRat, Decimal.toRat_zero, not_le] at hle

theorem count_pos_of_mem {config : Config} (h : config.fault? = none) (field : String)
    {value : UInt64} (hmem : .countPositive field value ∈ config.checks) : 0 < value.toNat := by
  have hcheck := check_of_fault?_eq_none h hmem
  rw [Check.countPositive] at hcheck
  split at hcheck
  · cases hcheck
  · rename_i hle
    rwa [UInt64.not_le, UInt64.lt_iff_toNat_lt] at hle

theorem startingBalance_pos {config : Config} (h : config.fault? = none) :
    0 < config.portfolio.startingBalance.toRat :=
  amount_pos_of_mem h "portfolio.startingBalance" (by simp [checks, PortfolioSettings.checks])

theorem tradeSize_pos {config : Config} (h : config.fault? = none) :
    0 < config.portfolio.tradeSize.toRat :=
  amount_pos_of_mem h "portfolio.tradeSize" (by simp [checks, PortfolioSettings.checks])

theorem drawdownHaltPercent_of_valid {config : Config} (h : config.fault? = none) :
    0 < config.portfolio.drawdownHaltPercent.toRat ∧
      config.portfolio.drawdownHaltPercent.toRat ≤ 100 := by
  have hcheck : (Check.percent "portfolio.drawdownHaltPercent"
      config.portfolio.drawdownHaltPercent).violation = none :=
    check_of_fault?_eq_none h (by simp [checks, PortfolioSettings.checks])
  rw [Check.percent] at hcheck
  split at hcheck
  · cases hcheck
  · rename_i hbounds
    rw [not_or, Decimal.le_iff_toRat, Decimal.toRat_zero, not_le, Decimal.lt_iff_toRat, not_lt] at hbounds
    exact ⟨hbounds.1, hbounds.2.trans_eq Decimal.toRat_hundred⟩

theorem timeStop_of_valid {config : Config} (h : config.fault? = none) :
    config.positions.timeStop? = some (config.positions.timeStopMinutes.toNat * 60000 : Int) :=
  Span.ofMinutes?_of_le (span_le_of_mem h "positions.timeStopMinutes"
    (by simp [checks, PositionSettings.checks]))

end Config

namespace Signal

def checks : Signal → List Check
  | tradeConcentration s => s.checks
  | flowAsymmetry s => s.checks
  | spreadVelocity s => s.checks
  | volumeDivergence s => s.checks
  | tradeClustering s => s.checks
  | tradeImbalance s => s.checks

private theorem weight_checked (signal : Signal) :
    ∃ field, .weight field signal.weight ∈ signal.checks := by
  cases signal with
  | tradeConcentration s => exact ⟨_, List.mem_cons_self⟩
  | flowAsymmetry s => exact ⟨_, List.mem_cons_self⟩
  | spreadVelocity s => exact ⟨_, List.mem_cons_self⟩
  | volumeDivergence s => exact ⟨_, List.mem_cons_self⟩
  | tradeClustering s => exact ⟨_, List.mem_cons_self⟩
  | tradeImbalance s => exact ⟨_, List.mem_cons_self⟩

private theorem windows_checked (signal : Signal) :
    (∃ field, .span field signal.windowSecs ∈ signal.checks) ∧
      ∃ field, .span field signal.baselineSecs ∈ signal.checks := by
  cases signal with
  | tradeConcentration s =>
    have hmem : .span "signals.tradeConcentration.windowSecs" s.windowSecs ∈ s.checks := by
      simp [TradeConcentrationSettings.checks]
    exact ⟨⟨_, hmem⟩, _, hmem⟩
  | flowAsymmetry s =>
    have hmem : .span "signals.flowAsymmetry.windowSecs" s.windowSecs ∈ s.checks := by
      simp [FlowAsymmetrySettings.checks]
    exact ⟨⟨_, hmem⟩, _, hmem⟩
  | spreadVelocity s =>
    have hmem : .span "signals.spreadVelocity.windowSecs" s.windowSecs ∈ s.checks := by
      simp [SpreadVelocitySettings.checks]
    exact ⟨⟨_, hmem⟩, _, hmem⟩
  | volumeDivergence s =>
    have hwindow : .span "signals.volumeDivergence.windowSecs" s.windowSecs ∈ s.checks := by
      simp [VolumeDivergenceSettings.checks]
    have hbaseline : .span "signals.volumeDivergence.baselineWindowSecs" s.baselineWindowSecs ∈
        s.checks := by
      simp [VolumeDivergenceSettings.checks]
    exact ⟨⟨_, hwindow⟩, _, hbaseline⟩
  | tradeClustering s =>
    have hmem : .span "signals.tradeClustering.windowSecs" s.windowSecs ∈ s.checks := by
      simp [TradeClusteringSettings.checks]
    exact ⟨⟨_, hmem⟩, _, hmem⟩
  | tradeImbalance s =>
    have hmem : .span "signals.tradeImbalance.windowSecs" s.windowSecs ∈ s.checks := by
      simp [TradeImbalanceSettings.checks]
    exact ⟨⟨_, hmem⟩, _, hmem⟩

end Signal

namespace Config

/-- The six signals with their settings, also those that are not enabled. -/
def listed (config : Config) : List Signal := config.signals.all.map Prod.snd

theorem mem_listed_of_enabled {config : Config} {signal : Signal}
    (h : signal ∈ config.signals.enabled) : signal ∈ config.listed := by
  obtain ⟨entry, hentry, rfl⟩ := List.mem_map.1 h
  exact List.mem_map_of_mem (List.mem_filter.1 hentry).1

/-- All checks of a signal are made, whether it is enabled or not. -/
theorem mem_checks_of_listed {config : Config} {signal : Signal} (h : signal ∈ config.listed)
    {check : Check} (hcheck : check ∈ signal.checks) : check ∈ config.checks := by
  simp only [listed, SignalSettings.all, List.mem_map, List.mem_cons, List.not_mem_nil, or_false]
    at h
  obtain ⟨entry, hentry, rfl⟩ := h
  apply List.mem_append_right
  simp only [SignalSettings.checks, List.mem_append]
  rcases hentry with rfl | rfl | rfl | rfl | rfl | rfl <;> simp only [Signal.checks] at hcheck <;>
    simp only [hcheck, true_or, or_true]

theorem seconds_le_of_listed {config : Config} (h : config.fault? = none) {signal : Signal}
    (hsignal : signal ∈ config.listed) :
    signal.windowSecs ≤ maxSpanSeconds ∧ signal.baselineSecs ≤ maxSpanSeconds := by
  obtain ⟨⟨field, hwindow⟩, field', hbaseline⟩ := signal.windows_checked
  exact ⟨span_le_of_mem h field (mem_checks_of_listed hsignal hwindow),
    span_le_of_mem h field' (mem_checks_of_listed hsignal hbaseline)⟩

theorem windows_of_listed {config : Config} (h : config.fault? = none) {signal : Signal}
    (hsignal : signal ∈ config.listed) :
    ∃ window baseline, signal.windows = .ok (window, baseline) ∧
      (0 ≤ window ∧ window ≤ maxSpan) ∧ 0 ≤ baseline ∧ baseline ≤ maxSpan := by
  obtain ⟨hwindow, hbaseline⟩ := seconds_le_of_listed h hsignal
  obtain ⟨window, hw, hwbounds⟩ := Span.ofSeconds?_of_le hwindow
  obtain ⟨baseline, hb, hbbounds⟩ := Span.ofSeconds?_of_le hbaseline
  refine ⟨window, baseline, ?_, hwbounds, hbbounds⟩
  rw [Signal.windows, hw, hb]
  rfl

theorem windows_of_enabled {config : Config} (h : config.fault? = none) {signal : Signal}
    (hsignal : signal ∈ config.signals.enabled) :
    ∃ window baseline, signal.windows = .ok (window, baseline) ∧
      (0 ≤ window ∧ window ≤ maxSpan) ∧ 0 ≤ baseline ∧ baseline ≤ maxSpan :=
  windows_of_listed h (mem_listed_of_enabled hsignal)

theorem length_enabled_le (settings : SignalSettings) : settings.enabled.length ≤ 6 := by
  unfold SignalSettings.enabled
  rw [List.length_map]
  apply List.length_filter_le

theorem weight_isFinite_of_enabled {config : Config} (h : config.fault? = none) {signal : Signal}
    (hsignal : signal ∈ config.signals.enabled) : signal.weight.isFinite = true := by
  obtain ⟨field, hmem⟩ := signal.weight_checked
  have hcheck := check_of_fault?_eq_none h (mem_checks_of_listed (mem_listed_of_enabled hsignal) hmem)
  rw [Check.weight] at hcheck
  split at hcheck
  · rename_i hfinite
    rw [Check.isFiniteNonNegative, Bool.and_eq_true] at hfinite
    exact hfinite.1
  · cases hcheck

theorem activationWindow_of_valid {config : Config} (h : config.fault? = none) :
    ∃ window, (Composer.ofConfig config).activationWindow = .ok window ∧
      0 ≤ window ∧ window ≤ maxSpan := by
  have hle : config.activation.windowSecs ≤ maxSpanSeconds :=
    span_le_of_mem h "activation.windowSecs" (by simp [checks, ActivationSettings.checks])
  obtain ⟨window, hwindow, hbounds⟩ := Span.ofSeconds?_of_le hle
  refine ⟨window, ?_, hbounds⟩
  rw [Composer.activationWindow]
  change orAbort _ (Span.ofSeconds? config.activation.windowSecs) = _
  rw [hwindow]
  rfl

theorem margin_of_valid {config : Config} (h : config.fault? = none) :
    ∃ margin, Span.ofSeconds? config.engine.retentionMarginSecs = some margin ∧
      0 ≤ margin ∧ margin ≤ maxSpan := by
  refine Span.ofSeconds?_of_le (span_le_of_mem h "engine.retentionMarginSecs" ?_)
  simp [checks]

end Config

end SignalDesk
