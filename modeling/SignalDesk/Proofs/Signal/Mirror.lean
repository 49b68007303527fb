import SignalDesk.Proofs.Clustering
import SignalDesk.Proofs.Composer
import SignalDesk.Proofs.Float.Complement
import SignalDesk.Proofs.Reading
import SignalDesk.Proofs.Tape.Mirror

/-!
# Signals in the mirror

Five signals have no preference for a side: on the mirrored market they have the opposite score with
the same confidence, unless the contracts they sum are tied, which counts for YES. The asymmetry of
flow adds the mean prices of both sides up, and so it looks the same from either side: on the mirrored
market its score keeps the sign.
-/

namespace SignalDesk

open FloatValue

namespace Reading

/-- The opposite score with the same confidence. -/
structure Opposes (reading other : Reading) : Prop where
  score : (other.score == -reading.score) = true
  confidence : other.confidence = reading.confidence

/-- Neither reading is for the side that the other one is against. -/
structure Concurs (reading other : Reading) : Prop where
  not_contrary : ¬(0.0 < reading.score ∧ other.score < 0.0)
  not_contrary' : ¬(reading.score < 0.0 ∧ 0.0 < other.score)

variable {a a' b b' : Reading}

private theorem silent_opposes (reason reason' : String) :
    (silent reason).Opposes (silent reason') where
  score := Opposite.beq_neg (x := 0.0) (y := 0.0) (.inr ⟨rfl, rfl⟩) isFinite_zero
  confidence := rfl

theorem Opposes.ite {p : Prop} [Decidable p] (ha : a.Opposes a') (hb : b.Opposes b') :
    (if p then a else b).Opposes (if p then a' else b') := by
  by_cases h : p
  · rwa [if_pos h, if_pos h]
  · rwa [if_neg h, if_neg h]

private theorem bounded_opposes {score score' : Float} (h : Opposite score score')
    (confidence : Float) (reason reason' : String) :
    (bounded score confidence reason).Opposes (bounded score' confidence reason') := by
  have hscores : Opposite (bounded score confidence reason).score
      (bounded score' confidence reason').score := by
    simp only [bounded, h.isFinite]
    by_cases hfinite : score.isFinite = true
    · rw [if_pos hfinite, if_pos hfinite]
      exact h.clamp hfinite
    · rw [if_neg hfinite, if_neg hfinite]
      exact .inr ⟨rfl, rfl⟩
  refine ⟨hscores.beq_neg (bounded_inBounds score confidence reason).score_finite, ?_⟩
  have hconfidence (s : Float) (t : String) : (bounded s confidence t).confidence =
      if ((bounded s confidence t).score == 0.0 || !confidence.isFinite) = true then 0.0
      else FloatOrder.clamp 0.0 1.0 confidence := rfl
  rw [hconfidence, hconfidence, hscores.beq_zero]

theorem not_zero_lt_zero : ¬(0.0 : Float) < 0.0 := by
  rw [lt_iff isFinite_zero isFinite_zero]
  exact lt_irrefl _

private theorem Concurs.not_opposes (h : a.Concurs a') (hbounds : a.InBounds) (hbounds' : a'.InBounds)
    (hfired : a.fired = true) : ¬a.Opposes a' := by
  intro hopposes
  have hfinite := hbounds.score_finite
  have hfinite' := hbounds'.score_finite
  have hvalue : value a'.score = -value a.score := by
    rw [← value_neg]
    exact value_eq_of_beq hfinite' (by rwa [isFinite_neg]) hopposes.score
  rcases lt_trichotomy (value a.score) 0 with hneg | hzero | hpos
  · apply h.not_contrary'
    rw [lt_iff hfinite isFinite_zero, lt_iff isFinite_zero hfinite', value_zero, hvalue]
    exact ⟨hneg, neg_pos.2 hneg⟩
  · rw [fired, bne, beq_zero_of_value hfinite hzero] at hfired
    cases hfired
  · apply h.not_contrary
    rw [lt_iff isFinite_zero hfinite, lt_iff hfinite' isFinite_zero, value_zero, hvalue]
    exact ⟨hpos, neg_lt_zero.2 hpos⟩

private theorem concurs_of_silent (reason : String) (other : Reading) :
    (silent reason).Concurs other :=
  ⟨fun h => not_zero_lt_zero h.1, fun h => not_zero_lt_zero h.1⟩

private theorem concurs_silent (reading : Reading) (reason : String) :
    reading.Concurs (silent reason) :=
  ⟨fun h => not_zero_lt_zero h.2, fun h => not_zero_lt_zero h.2⟩

theorem score_bounded (score confidence : Float) (reason : String) :
    (bounded score confidence reason).score =
      if score.isFinite then FloatOrder.clamp (-1.0) 1.0 score else 0.0 := rfl

/-- Bounding a score does not give it a side that it did not have. -/
theorem side_of_bounded {score confidence : Float} {reason : String} :
    (0.0 < (bounded score confidence reason).score → 0.0 < score) ∧
      ((bounded score confidence reason).score < 0.0 → score < 0.0) := by
  rw [score_bounded]
  split
  · rename_i hfinite
    have hclamp := clamp_isFinite isFinite_neg_one isFinite_one hfinite
    have hvalue := value_clamp isFinite_neg_one isFinite_one hfinite (by simp)
    rw [lt_iff isFinite_zero hclamp, lt_iff hclamp isFinite_zero, lt_iff isFinite_zero hfinite,
      lt_iff hfinite isFinite_zero, hvalue]
    constructor
    all_goals
      intro h
      simpa [not_lt.2 (zero_le_one' ℚ)] using h
  · exact ⟨fun h => absurd h not_zero_lt_zero, fun h => absurd h not_zero_lt_zero⟩

end Reading

open Reading

private theorem Side.sign_mul_opposite (side : Side) (x : Float) :
    Opposite (side.sign * x) (side.opposite.sign * x) := by
  rw [sign_opposite, float_neg_mul]
  exact opposite_neg _

private theorem TradeConcentration.read_mirror (settings : TradeConcentrationSettings) {window : Span}
    {tape : Tape} (h : ¬(tape.tradeFlow window).totals.Tied) :
    (read settings window tape).Opposes (read settings window tape.mirror) := by
  have hcounts (trades : List Trade) :
      (trades.map Trade.mirror).map Trade.count = trades.map Trade.count := by
    rw [List.map_map]
    rfl
  have htotals : ¬(SideTotals.ofTrades (tape.tradesWithin window)).Tied := h
  simp only [read, Tape.tradesWithin_mirror, List.length_map, hcounts, SideTotals.ofTrades_mirror,
    SideTotals.dominant_swap htotals, SideTotals.larger_swap]
  apply Opposes.ite (silent_opposes _ _)
  apply Opposes.ite (silent_opposes _ _)
  apply Opposes.ite (silent_opposes _ _)
  exact bounded_opposes (Side.sign_mul_opposite _ _) _ _ _

private theorem TradeImbalance.read_mirror (settings : TradeImbalanceSettings) (window : Span)
    (tape : Tape) : (read settings window tape).Opposes (read settings window tape.mirror) := by
  have himbalance (totals : SideTotals) :
      Opposite ((totals.yes.toFloat - totals.no.toFloat) / totals.total.toFloat)
        ((totals.swap.yes.toFloat - totals.swap.no.toFloat) / totals.total.toFloat) :=
    (sub_opposite _ _).div _
  simp only [read, Tape.tradeFlow_mirror, SideTotals.total_swap, (himbalance _).abs]
  apply Opposes.ite (silent_opposes _ _)
  apply Opposes.ite (silent_opposes _ _)
  apply Opposes.ite (silent_opposes _ _)
  exact bounded_opposes (himbalance _) _ _ _

private theorem VolumeDivergence.read_mirror (settings : VolumeDivergenceSettings) {window : Span}
    (baseline : Span) {tape : Tape} (hvalid : ∀ r ∈ tape.records, r.isValid = true)
    (h : ¬(tape.tradeFlow window).totals.Tied) :
    (read settings window baseline tape).Opposes (read settings window baseline tape.mirror) := by
  simp only [read, Tape.tradeFlow_mirror, Tape.volumeRate_mirror, Tape.abs_priceChange_mirror hvalid,
    SideTotals.dominant_swap h]
  apply Opposes.ite (silent_opposes _ _)
  apply Opposes.ite (silent_opposes _ _)
  apply Opposes.ite (silent_opposes _ _)
  apply Opposes.ite (silent_opposes _ _)
  exact bounded_opposes (Side.sign_mul_opposite _ _) _ _ _

namespace SpreadVelocity

private theorem readFit_mirror (settings : SpreadVelocitySettings)
    {first last first' last' : SpreadPoint}
    (h : Opposite (last.midpoint - first.midpoint) (last'.midpoint - first'.midpoint))
    (fit : Stats.LinearFit Float) :
    (readFit settings first last fit).Opposes (readFit settings first' last' fit) := by
  simp only [readFit, h.beq_zero]
  apply Opposes.ite (silent_opposes _ _)
  by_cases hstill : ((last.midpoint - first.midpoint) == 0.0) = true
  · rw [if_pos hstill, if_pos hstill]
    exact silent_opposes _ _
  · rw [if_neg hstill, if_neg hstill]
    obtain hneg | ⟨hzero, -⟩ := h
    · rw [hneg, signum_neg, float_neg_mul]
      exact bounded_opposes (opposite_neg _) _ _ _
    · exact absurd hzero hstill

def pointOf (quote : Quote) : SpreadPoint := ⟨quote.ts, Float.ofInt quote.spread.toInt, quote.midpoint⟩

private theorem points_mirror (first : Quote) (quotes : List Quote) :
    points (pointOf first.mirror) ((quotes.map Quote.mirror).map pointOf) =
      points (pointOf first) (quotes.map pointOf) := by
  simp only [points, List.map_map]
  refine List.map_congr_left fun quote _ => ?_
  simp only [Function.comp, pointOf, Quote.spread_mirror]
  rfl

private theorem read_mirror (settings : SpreadVelocitySettings) (window : Span) {tape : Tape}
    (hvalid : ∀ r ∈ tape.records, r.isValid = true) :
    (read settings window tape).Opposes (read settings window tape.mirror) := by
  have hhistory : tape.spreadHistory window = (tape.quotesWithin window).map pointOf := rfl
  have hhistory' : tape.mirror.spreadHistory window =
      ((tape.quotesWithin window).map Quote.mirror).map pointOf := by
    rw [← Tape.quotesWithin_mirror]
    rfl
  have hquotes := Tape.quotesWithin_valid hvalid window
  unfold read
  simp only [hhistory, hhistory', List.length_map, List.head?_map, List.getLast?_map]
  apply Opposes.ite (silent_opposes _ _)
  cases hfirst : (tape.quotesWithin window).head? with
  | none => exact silent_opposes _ _
  | some first =>
    cases hlast : (tape.quotesWithin window).getLast? with
    | none => exact silent_opposes _ _
    | some last =>
      simp only [Option.map_some, points_mirror]
      cases Stats.linearFit (points (pointOf first) ((tape.quotesWithin window).map pointOf)) with
      | none => exact silent_opposes _ _
      | some fit =>
        apply readFit_mirror
        exact (Quote.priced_of_valid (hquotes first (List.mem_of_head? hfirst))).drift_opposite
          (Quote.priced_of_valid (hquotes last (List.mem_of_getLast? hlast)))

end SpreadVelocity

namespace TradeClustering

/-- The newest burst that breaks a silence. -/
def newest? (settings : TradeClusteringSettings) (window : Span) (tape : Tape) : Option Burst :=
  (segment settings.burstGapSec (tape.lastTradeBefore? window)
    (tape.tradesWithin window)).reverse.find? (qualifies settings)

private theorem secondsBetween_mirror (earlier later : Trade) :
    secondsBetween earlier.mirror later.mirror = secondsBetween earlier later := rfl

private theorem newest?_mirror (settings : TradeClusteringSettings) (window : Span) (tape : Tape) :
    newest? settings window tape.mirror =
      (newest? settings window tape).map (Burst.map Trade.mirror) := by
  rw [newest?, Tape.lastTradeBefore?_mirror, Tape.tradesWithin_mirror,
    find?_segment_map secondsBetween_mirror]
  rfl

private theorem readBurst_mirror (settings : TradeClusteringSettings) {burst : Burst}
    (h : ¬(SideTotals.ofTrades burst.trades).Tied) :
    (readBurst settings burst).Opposes (readBurst settings (burst.map Trade.mirror)) := by
  simp only [readBurst, trades_map, quietBefore_map, List.length_map, SideTotals.ofTrades_mirror,
    SideTotals.total_swap, SideTotals.dominant_swap h, SideTotals.larger_swap,
    seconds_map secondsBetween_mirror]
  apply Opposes.ite (silent_opposes _ _)
  rw [Side.sign_opposite, float_neg_mul, float_neg_mul]
  exact bounded_opposes (opposite_neg _) _ _ _

theorem read_eq (settings : TradeClusteringSettings) (window : Span) (tape : Tape) :
    read settings window tape =
      if (tape.tradesWithin window).length < settings.minBurstTrades.toNat then
        .silent s!"{(tape.tradesWithin window).length} trades < {settings.minBurstTrades}"
      else
        match newest? settings window tape with
        | some burst => readBurst settings burst
        | none => .silent "no burst after a quiet period" := rfl

private theorem read_mirror (settings : TradeClusteringSettings) {window : Span} {tape : Tape}
    (h : ∀ burst ∈ newest? settings window tape, ¬(SideTotals.ofTrades burst.trades).Tied) :
    (read settings window tape).Opposes (read settings window tape.mirror) := by
  rw [read_eq, read_eq, newest?_mirror, Tape.tradesWithin_mirror, List.length_map]
  apply Opposes.ite (silent_opposes _ _)
  cases hnewest : newest? settings window tape with
  | none => exact silent_opposes _ _
  | some burst => exact readBurst_mirror settings (h burst hnewest)

end TradeClustering

namespace FlowAsymmetry

/-- The score of a difference of ten cents or more is full. -/
def conviction (asymmetry : Float) : Float :=
  FloatOrder.signum asymmetry * FloatOrder.min (asymmetry.abs / 10.0) 1.0

private theorem conviction_neg (asymmetry : Float) :
    conviction (-asymmetry) = -conviction asymmetry := by
  rw [conviction, signum_neg, abs_float_neg, float_neg_mul]
  rfl

theorem pos_of_conviction_pos {asymmetry : Float} (h : 0.0 < conviction asymmetry) :
    0.0 < asymmetry := by
  have hmagnitude : NonNegative (FloatOrder.min (asymmetry.abs / 10.0) 1.0) :=
    ((nonNegative_abs asymmetry).div (nonNegative_of_sign rfl)).min (nonNegative_of_sign rfl)
  apply pos_of_sign (sign_of_signum_mul_pos hmagnitude h)
  rintro rfl
  rw [lt_iff_unpacked] at h
  exact nomatch h

theorem neg_of_conviction_neg {asymmetry : Float} (h : conviction asymmetry < 0.0) :
    asymmetry < 0.0 := by
  rw [← zero_lt_neg_iff] at h ⊢
  rw [← conviction_neg] at h
  exact pos_of_conviction_pos h

private theorem sideMean_mirror (trades : List Trade) (side : Side) :
    sideMean (trades.map Trade.mirror) side = sideMean trades side.opposite := by
  have hside : (fun t : Trade => t.mirror.side == side) = fun t => t.side == side.opposite := by
    funext t
    exact Side.opposite_beq t.side side
  simp only [sideMean, List.filter_map, List.map_map, Function.comp_def, hside]
  rfl

/-- The mean prices of both sides are added up, so exchanging the sides keeps the sign. -/
theorem read_mirror (settings : FlowAsymmetrySettings) (window : Span) (tape : Tape) :
    (read settings window tape).Concurs (read settings window tape.mirror) := by
  simp only [read, Tape.tradesWithin_mirror, List.length_map, sideMean_mirror]
  split
  · exact concurs_of_silent _ _
  · have hwhole : (100.0 : Float).isFinite = true := rfl
    have hopposite : Side.yes.opposite = .no ∧ Side.no.opposite = .yes := ⟨rfl, rfl⟩
    rw [hopposite.1, hopposite.2]
    cases sideMean (tape.tradesWithin window) .yes with
    | none => exact concurs_of_silent _ _
    | some yes =>
      cases sideMean (tape.tradesWithin window) .no with
      | none => exact concurs_of_silent _ _
      | some no =>
        simp only
        split
        · exact concurs_of_silent _ _
        · split
          · exact concurs_silent _ _
          · constructor
            · rintro ⟨hpos, hneg⟩
              exact complement_not_contrary hwhole (pos_of_conviction_pos (side_of_bounded.1 hpos))
                (neg_of_conviction_neg (side_of_bounded.2 hneg))
            · rintro ⟨hneg, hpos⟩
              exact complement_not_contrary hwhole (pos_of_conviction_pos (side_of_bounded.1 hpos))
                (neg_of_conviction_neg (side_of_bounded.2 hneg))

end FlowAsymmetry

namespace Signal

/-- No tie decides the side that the signal is for. -/
def Untied (signal : Signal) (tape : Tape) : Prop :=
  ∀ window ∈ Span.ofSeconds? signal.windowSecs,
    match signal with
    | tradeConcentration _ | volumeDivergence _ => ¬(tape.tradeFlow window).totals.Tied
    | tradeClustering s =>
      ∀ burst ∈ TradeClustering.newest? s window tape, ¬(SideTotals.ofTrades burst.trades).Tied
    | flowAsymmetry _ | spreadVelocity _ | tradeImbalance _ => True

/-- Whether the signal has no preference for a side. -/
def Evenhanded : Signal → Prop
  | flowAsymmetry _ => False
  | _ => True

private theorem readWithin_mirror {signal : Signal} (hsignal : signal.Evenhanded) {tape : Tape}
    (hvalid : ∀ r ∈ tape.records, r.isValid = true) (h : signal.Untied tape) {window : Span}
    (hwindow : Span.ofSeconds? signal.windowSecs = some window) (baseline : Span) :
    (signal.readWithin tape window baseline).Opposes
      (signal.readWithin tape.mirror window baseline) := by
  have huntied := h window hwindow
  cases signal with
  | tradeConcentration s => exact TradeConcentration.read_mirror s huntied
  | flowAsymmetry s => exact hsignal.elim
  | spreadVelocity s => exact SpreadVelocity.read_mirror s window hvalid
  | volumeDivergence s => exact VolumeDivergence.read_mirror s baseline hvalid huntied
  | tradeClustering s => exact TradeClustering.read_mirror s huntied
  | tradeImbalance s => exact TradeImbalance.read_mirror s window tape

/-- What the signals of a valid configuration say of the mirror image of accepted records. -/
theorem readings_mirror {config : Config} (hconfig : config.fault? = none) {signal : Signal}
    (hsignal : signal ∈ config.listed) {records : List Record}
    (hrecords : ∀ record ∈ records, record.isValid = true) (instrument : String) (retention : Span) :
    let tape := (Tape.empty instrument retention).updateAll records
    let mirrored := (Tape.empty instrument retention).updateAll (records.map Record.mirror)
    (∀ record ∈ records.map Record.mirror, record.isValid = true) ∧ mirrored = tape.mirror ∧
      ∃ reading reading', signal.read tape = .ok reading ∧ signal.read mirrored = .ok reading' ∧
        (signal.Evenhanded → signal.Untied tape → reading.Opposes reading') ∧
        (¬signal.Evenhanded → reading.Concurs reading' ∧
          (reading.fired = true → ¬reading.Opposes reading')) := by
  intro tape mirrored
  have hmirrored : mirrored = tape.mirror :=
    Tape.updateAll_mirror (Tape.empty instrument retention) records
  have hvalid : ∀ r ∈ tape.records, r.isValid = true :=
    Tape.updateAll_valid hrecords (by simp [Tape.empty])
  refine ⟨?_, hmirrored, ?_⟩
  · intro record hrecord
    obtain ⟨original, horiginal, rfl⟩ := List.mem_map.1 hrecord
    exact Record.isValid_mirror (hrecords original horiginal)
  · obtain ⟨window, baseline, hwindows, -⟩ := Config.windows_of_listed hconfig hsignal
    have hread (t : Tape) : signal.read t = .ok (signal.readWithin t window baseline) := by
      rw [read, hwindows]
      rfl
    rw [hmirrored]
    refine ⟨_, _, hread tape, hread tape.mirror, ?_, ?_⟩
    · intro heven huntied
      exact readWithin_mirror heven hvalid huntied (windows_ok hwindows).1 baseline
    · intro huneven
      have hconcurs : (signal.readWithin tape window baseline).Concurs
          (signal.readWithin tape.mirror window baseline) := by
        cases signal with
        | flowAsymmetry s => exact FlowAsymmetry.read_mirror s window tape
        | _ => exact absurd trivial huneven
      exact ⟨hconcurs, hconcurs.not_opposes (signal.readWithin_inBounds tape window baseline)
        (signal.readWithin_inBounds tape.mirror window baseline)⟩

/-- A window in which one trade holds most contracts. -/
theorem readings_mirror_of_one_large_trade :
    let config : Config := {}
    let signal : Signal := .tradeConcentration {}
    let records : List Record := [.trade ⟨"RAIN", 0, .yes, 90, 40⟩, .trade ⟨"RAIN", 1000, .no, 4, 61⟩,
      .trade ⟨"RAIN", 2000, .yes, 2, 40⟩, .trade ⟨"RAIN", 3000, .no, 2, 61⟩,
      .trade ⟨"RAIN", 4000, .no, 2, 61⟩]
    let tape := (Tape.empty "RAIN" 3600000).updateAll records
    let mirrored := (Tape.empty "RAIN" 3600000).updateAll (records.map Record.mirror)
    config.fault? = none ∧ signal ∈ config.listed ∧ (∀ record ∈ records, record.isValid = true) ∧
      signal.Untied tape ∧ ∃ reading reading', signal.read tape = .ok reading ∧
        signal.read mirrored = .ok reading' ∧ 0.0 < reading.score ∧ reading.Opposes reading' := by
  intro config signal records tape mirrored
  have hconfig : config.fault? = none := by decide +kernel
  have hsignal : signal ∈ config.listed := List.mem_cons_self
  have hrecords : ∀ record ∈ records, record.isValid = true := by decide +kernel
  have huntied : signal.Untied tape := by
    have hspan : Span.ofSeconds? signal.windowSecs = some 300000 := by decide +kernel
    intro window hwindow
    rw [Option.mem_def, hspan] at hwindow
    cases hwindow
    show ¬(tape.tradeFlow 300000).totals.Tied
    decide +kernel
  obtain ⟨-, -, reading, reading', hread, hread', hopposes, -⟩ :=
    readings_mirror hconfig hsignal hrecords "RAIN" 3600000
  have hpositive : ∃ reading, signal.read tape = .ok reading ∧ 0.0 < reading.score :=
    exists_ok_of_any (by decide +kernel)
  obtain ⟨same, hsame, hpositive⟩ := hpositive
  obtain rfl : reading = same := Except.ok.inj (hread.symm.trans hsame)
  exact ⟨hconfig, hsignal, hrecords, huntied, reading, reading', hread, hread', hpositive,
    hopposes trivial huntied⟩

/-- Buyers who pay 58 cents for YES against 45 for NO score the same as buyers who pay 58 cents for NO
against 45 for YES. -/
theorem asymmetry_alike_in_mirror :
    let config : Config := {}
    let signal : Signal := .flowAsymmetry {}
    let records : List Record := [.trade ⟨"RAIN", 0, .yes, 10, 58⟩, .trade ⟨"RAIN", 1000, .no, 10, 45⟩,
      .trade ⟨"RAIN", 2000, .yes, 5, 58⟩, .trade ⟨"RAIN", 3000, .no, 5, 45⟩,
      .trade ⟨"RAIN", 4000, .yes, 5, 58⟩]
    let tape := (Tape.empty "RAIN" 3600000).updateAll records
    config.fault? = none ∧ signal ∈ config.listed ∧ (∀ record ∈ records, record.isValid = true) ∧
      ¬(tape.tradeFlow 300000).totals.Tied ∧ ∃ reading reading', signal.read tape = .ok reading ∧
        signal.read tape.mirror = .ok reading' ∧ reading.score = 0.3 ∧ reading'.score = 0.3 ∧
        ¬reading.Opposes reading' := by
  intro config signal records tape
  have hread : ∃ reading, signal.read tape = .ok reading ∧ reading.score = 0.3 :=
    exists_ok_of_any (by decide +kernel)
  have hread' : ∃ reading, signal.read tape.mirror = .ok reading ∧ reading.score = 0.3 :=
    exists_ok_of_any (by decide +kernel)
  obtain ⟨reading, hread, hscore⟩ := hread
  obtain ⟨reading', hread', hscore'⟩ := hread'
  refine ⟨by decide +kernel, by simp [config, signal, Config.listed, SignalSettings.all],
    by decide +kernel, by decide +kernel, reading, reading', hread, hread', hscore, hscore', ?_⟩
  intro hopposes
  have hnegation := hopposes.score
  rw [hscore, hscore'] at hnegation
  exact absurd hnegation (by decide +kernel)

end Signal

end SignalDesk
