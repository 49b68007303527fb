import SignalDesk.Proofs.Float.Side
import SignalDesk.Proofs.Signal.Bursts

/-!
# What a score rests on

A signal that is not silent has the sample that its settings ask for, and its score is for the side
that leads by its own measure. The records may come in any order of their times, and contracts are
totalled in words, so totals that do not fit are tied at the largest word.
-/

namespace SignalDesk

open FloatValue

namespace Reading

/-- The reading is silent without a sample, and its score is positive only if YES leads and negative
only if YES does not. -/
structure Backed (reading : Reading) (sampled yesLeads : Prop) : Prop where
  silent : ¬sampled → reading.score = 0.0 ∧ reading.confidence = 0.0
  of_pos : 0.0 < reading.score → yesLeads
  of_neg : reading.score < 0.0 → ¬yesLeads

variable {reading other : Reading} {sampled yesLeads : Prop}

private theorem silent_backed (reason : String) :
    (Reading.silent reason).Backed sampled yesLeads where
  silent _ := ⟨rfl, rfl⟩
  of_pos h := absurd h not_zero_lt_zero
  of_neg h := absurd h not_zero_lt_zero

theorem Backed.ite {p : Prop} [Decidable p] (h : p → reading.Backed sampled yesLeads)
    (h' : ¬p → other.Backed sampled yesLeads) :
    (if p then reading else other).Backed sampled yesLeads := by
  split
  · exact h ‹_›
  · exact h' ‹_›

private theorem bounded_backed {score confidence : Float} {reason : String} (hsampled : sampled)
    (hpos : 0.0 < score → yesLeads) (hneg : score < 0.0 → ¬yesLeads) :
    (bounded score confidence reason).Backed sampled yesLeads where
  silent h := absurd hsampled h
  of_pos h := hpos (side_of_bounded.1 h)
  of_neg h := hneg (side_of_bounded.2 h)

private theorem InBounds.pos_or_neg (h : reading.InBounds) (hfired : reading.fired = true) :
    0.0 < reading.score ∨ reading.score < 0.0 := by
  have hfinite := h.score_finite
  rw [lt_iff isFinite_zero hfinite, lt_iff hfinite isFinite_zero, value_zero]
  by_contra hnone
  have hzero : value reading.score = 0 := by
    push Not at hnone
    exact le_antisymm hnone.1 hnone.2
  rw [fired, bne, beq_zero_of_value hfinite hzero] at hfired
  cases hfired

/-- A reading that is backed and not zero has its sample and the sign of the side that leads. -/
theorem Backed.of_fired (h : reading.Backed sampled yesLeads) (hbounds : reading.InBounds)
    (hfired : reading.fired = true) :
    sampled ∧ (0.0 < reading.score ↔ yesLeads) ∧ (reading.score < 0.0 ↔ ¬yesLeads) := by
  have hside := hbounds.pos_or_neg hfired
  refine ⟨?_, ⟨h.of_pos, fun hyes => ?_⟩, h.of_neg, fun hno => ?_⟩
  · by_contra hnone
    rw [fired, (h.silent hnone).1] at hfired
    cases hfired
  · exact hside.resolve_right fun hneg => h.of_neg hneg hyes
  · exact hside.resolve_left fun hpos => hno (h.of_pos hpos)

end Reading

open Reading

private theorem SideTotals.dominant_eq_yes_iff (trades : List Trade) :
    (ofTrades trades).dominant = .yes ↔ totalOn trades .no ≤ totalOn trades .yes := by
  have hyes : (ofTrades trades).yes.toNat = totalOn trades .yes := toNat_ofTrades trades .yes
  have hno : (ofTrades trades).no.toNat = totalOn trades .no := toNat_ofTrades trades .no
  rw [← hyes, ← hno, dominant, Side.dominant]
  split
  · rename_i hlt
    rw [UInt64.lt_iff_toNat_lt] at hlt
    simp only [reduceCtorEq, false_iff]
    omega
  · rename_i hnot
    rw [UInt64.lt_iff_toNat_lt] at hnot
    simp only [true_iff]
    omega

private theorem Reading.dominant_backed (trades : List Trade) (weight : Side → Float)
    {confidence : Float}
    {reason : String} {sampled : Prop} (hsampled : sampled) (hopposite : weight .no = -weight .yes)
    (hyes : ¬weight .yes < 0.0) :
    (bounded (weight (SideTotals.ofTrades trades).dominant) confidence reason).Backed sampled
      (totalOn trades .no ≤ totalOn trades .yes) := by
  rw [← SideTotals.dominant_eq_yes_iff]
  refine bounded_backed hsampled (Side.eq_yes_of_pos hopposite hyes) fun hneg => ?_
  rw [Side.eq_no_of_neg hyes hneg]
  nofun

private theorem Reading.sign_mul_backed (trades : List Trade) {x confidence : Float} {reason : String}
    {sampled : Prop} (hsampled : sampled) (hx : ¬x < 0.0) :
    (bounded ((SideTotals.ofTrades trades).dominant.sign * x) confidence reason).Backed sampled
      (totalOn trades .no ≤ totalOn trades .yes) :=
  dominant_backed trades (fun side => side.sign * x) hsampled (float_neg_mul 1.0 x)
    (not_one_mul_lt_zero hx)

namespace TradeConcentration

private theorem not_magnitude_lt_zero (index : Float) (n : ℕ) : ¬magnitude index n < 0.0 := by
  unfold magnitude
  split
  · exact (nonNegative_of_sign rfl : NonNegative 1.0).not_lt_zero
  · exact not_clamp_lt_zero _

private theorem read_backed (settings : TradeConcentrationSettings) (window : Span) (tape : Tape) :
    (read settings window tape).Backed
      (settings.minTrades.toNat ≤ (tape.tradesWithin window).length)
      (totalOn (tape.tradesWithin window) .no ≤ totalOn (tape.tradesWithin window) .yes) := by
  refine Backed.ite (fun _ => silent_backed _) fun henough => ?_
  refine Backed.ite (fun _ => silent_backed _) fun _ => ?_
  refine Backed.ite (fun _ => silent_backed _) fun _ => ?_
  exact sign_mul_backed _ (not_lt.1 henough) (not_magnitude_lt_zero _ _)

end TradeConcentration

private theorem VolumeDivergence.read_backed (settings : VolumeDivergenceSettings)
    (window baseline : Span) (tape : Tape) :
    (read settings window baseline tape).Backed
      (settings.minTrades.toNat ≤ (tape.tradesWithin window).length)
      (totalOn (tape.tradesWithin window) .no ≤ totalOn (tape.tradesWithin window) .yes) := by
  refine Backed.ite (fun _ => silent_backed _) fun _ => ?_
  refine Backed.ite (fun _ => silent_backed _) fun henough => ?_
  refine Backed.ite (fun _ => silent_backed _) fun _ => ?_
  refine Backed.ite (fun _ => silent_backed _) fun _ => ?_
  exact sign_mul_backed _ (not_lt.1 henough) (not_clamp_lt_zero _)

private theorem TradeImbalance.read_backed (settings : TradeImbalanceSettings) (window : Span)
    (tape : Tape) : (read settings window tape).Backed
      (settings.minTrades.toNat ≤ (tape.tradesWithin window).length)
      (totalOn (tape.tradesWithin window) .no < totalOn (tape.tradesWithin window) .yes) := by
  refine Backed.ite (fun _ => silent_backed _) fun henough => ?_
  refine Backed.ite (fun _ => silent_backed _) fun htotal => ?_
  refine Backed.ite (fun _ => silent_backed _) fun _ => ?_
  have hyes : (tape.tradeFlow window).totals.yes.toNat = totalOn (tape.tradesWithin window) .yes :=
    SideTotals.toNat_ofTrades _ .yes
  have hno : (tape.tradeFlow window).totals.no.toNat = totalOn (tape.tradesWithin window) .no :=
    SideTotals.toNat_ofTrades _ .no
  have hpos : 0 < (tape.tradeFlow window).totals.total.toNat :=
    Nat.pos_of_ne_zero fun hzero => htotal (UInt64.toNat_inj.1 hzero)
  have hsizable := sizable_toFloat hpos
  rw [← hyes, ← hno, ← UInt64.lt_iff_toNat_lt]
  refine bounded_backed (not_lt.1 henough) (fun h => ?_) fun h => ?_
  · exact lt_of_toFloat_lt (float_lt_of_sub_pos (pos_of_div_pos hsizable.finite hsizable.pos h))
  · have hlt := lt_of_toFloat_lt (float_lt_of_sub_neg (neg_of_div_neg hsizable.finite hsizable.pos h))
    exact UInt64.not_lt.2 (UInt64.le_of_lt hlt)

namespace SpreadVelocity

def middle (quote : Quote) : ℚ := (quote.yesBid.toInt + quote.yesAsk.toInt) / 2

private theorem value_midpoint {quote : Quote} (h : quote.Priced) :
    quote.midpoint.isFinite = true ∧ value quote.midpoint = middle quote := by
  have hbid := isCents_iff.1 h.bid
  have hask := isCents_iff.1 h.ask
  obtain ⟨n, hn⟩ := Int.eq_ofNat_of_zero_le (a := quote.yesBid.toInt + quote.yesAsk.toInt) (by omega)
  rw [h.midpoint_eq_half hn, middle, ← Int.cast_add, hn]
  exact half_value (by omega)

theorem pointOf_midpoint (quote : Quote) : (pointOf quote).midpoint = quote.midpoint := rfl

/-- YES leads if the middle of the book has risen between the ends of a window. -/
def Rises (quotes : List Quote) : Prop :=
  ∃ first ∈ quotes.head?, ∃ last ∈ quotes.getLast?, middle first < middle last

private theorem readFit_backed (settings : SpreadVelocitySettings) {sampled : Prop}
    (hsampled : sampled)
    {first last : Quote} (hfirst : first.Priced) (hlast : last.Priced) (fit : Stats.LinearFit Float) :
    (readFit settings (pointOf first) (pointOf last) fit).Backed sampled
      (middle first < middle last) := by
  simp only [readFit, pointOf_midpoint]
  refine Backed.ite (fun _ => silent_backed _) fun _ => ?_
  refine Backed.ite (fun _ => silent_backed _) fun hmoved => ?_
  obtain ⟨hfinite, hvalue⟩ := value_midpoint hfirst
  obtain ⟨hfinite', hvalue'⟩ := value_midpoint hlast
  have hmagnitude : NonNegative (FloatOrder.min (fit.slope.abs / fullScaleSlope) 1.0) :=
    ((nonNegative_abs fit.slope).div (nonNegative_of_sign rfl)).min (nonNegative_of_sign rfl)
  have hside := side_of_signum_mul hmagnitude hmoved
  rw [← hvalue, ← hvalue']
  refine bounded_backed hsampled (fun h => ?_) fun h => ?_
  · exact (lt_iff hfinite hfinite').1 (float_lt_of_sub_pos (hside.1 h))
  · rw [not_lt]
    exact ((lt_iff hfinite' hfinite).1 (float_lt_of_sub_neg (hside.2 h))).le

private theorem read_backed (settings : SpreadVelocitySettings) (window : Span) {tape : Tape}
    (hvalid : ∀ r ∈ tape.records, r.isValid = true) :
    (read settings window tape).Backed
      (settings.minSnapshots.toNat ≤ (tape.quotesWithin window).length)
      (Rises (tape.quotesWithin window)) := by
  have hhistory : tape.spreadHistory window = (tape.quotesWithin window).map pointOf := rfl
  have hquotes := Tape.quotesWithin_valid hvalid window
  unfold read Rises
  simp only [hhistory, List.length_map, List.head?_map, List.getLast?_map]
  refine Backed.ite (fun _ => silent_backed _) fun henough => ?_
  cases hfirst : (tape.quotesWithin window).head? with
  | none => exact silent_backed _
  | some first =>
    cases hlast : (tape.quotesWithin window).getLast? with
    | none => exact silent_backed _
    | some last =>
      simp only [Option.map_some]
      cases Stats.linearFit (points (pointOf first) ((tape.quotesWithin window).map pointOf)) with
      | none => exact silent_backed _
      | some fit =>
        have hfit := readFit_backed settings (not_lt.1 henough)
          (Quote.priced_of_valid (hquotes first (List.mem_of_head? hfirst)))
          (Quote.priced_of_valid (hquotes last (List.mem_of_getLast? hlast))) fit
        simpa using hfit

end SpreadVelocity

namespace FlowAsymmetry

/-- YES leads if its mean price is above what the mean price of NO leaves of 100 cents. -/
def Outbids (trades : List Trade) : Prop :=
  ∃ yes ∈ sideMean trades .yes, ∃ no ∈ sideMean trades .no, 100.0 - no < yes

private theorem read_backed (settings : FlowAsymmetrySettings) (window : Span) (tape : Tape) :
    (read settings window tape).Backed
      (settings.minTrades.toNat ≤ (tape.tradesWithin window).length)
      (Outbids (tape.tradesWithin window)) := by
  simp only [read]
  refine Backed.ite (fun _ => silent_backed _) fun henough => ?_
  unfold Outbids
  cases sideMean (tape.tradesWithin window) .yes with
  | none => exact silent_backed _
  | some yes =>
    cases sideMean (tape.tradesWithin window) .no with
    | none => exact silent_backed _
    | some no =>
      refine Backed.ite (fun _ => silent_backed _) fun _ => ?_
      show (bounded (conviction (yes - (100.0 - no))) _ _).Backed _ _
      refine bounded_backed (not_lt.1 henough) (fun h => ?_) fun h => ?_
      · exact ⟨yes, rfl, no, rfl, float_lt_of_sub_pos (pos_of_conviction_pos h)⟩
      · rintro ⟨_, ⟨⟩, _, ⟨⟩, hlt⟩
        exact float_not_lt_of_le (float_le_of_lt (float_lt_of_sub_neg (neg_of_conviction_neg h))) hlt

end FlowAsymmetry

namespace TradeClustering

/-- A burst of trades that follow each other in the window without long gaps, with enough of them. -/
structure Clustered (settings : TradeClusteringSettings) (trades : List Trade) (burst : Burst) : Prop where
  inside : burst.trades <:+: trades
  close : burst.trades.IsChain fun a b => secondsBetween a b ≤ settings.burstGapSec
  enough : settings.minBurstTrades.toNat ≤ burst.trades.length

private theorem isInfix_of_mem_segment {maxGap : Float} {prior : Option Trade} {trades : List Trade}
    {burst : Burst} (h : burst ∈ segment maxGap prior trades) : burst.trades <:+: trades := by
  obtain ⟨earlier, later, heq⟩ := List.append_of_mem h
  have hwhole := flatMap_segment maxGap prior trades
  rw [heq, List.flatMap_append, List.flatMap_cons, ← List.append_assoc] at hwhole
  exact ⟨_, _, hwhole⟩

private theorem isChain_of_mem_segment {maxGap : Float} {prior : Option Trade} {trades : List Trade}
    {burst : Burst} (h : burst ∈ segment maxGap prior trades) :
    burst.trades.IsChain fun a b => secondsBetween a b ≤ maxGap := by
  induction prior, trades using segment.induct maxGap with
  | case1 prior => simp [segment] at h
  | case2 prior first trades split newest ih =>
    rw [segment] at h
    rcases List.mem_cons.1 h with rfl | hrest
    · exact isChain_spanBurst first trades
    · exact ih hrest

private theorem clustered_of_newest? {settings : TradeClusteringSettings} {window : Span}
    {tape : Tape} {burst : Burst} (h : newest? settings window tape = some burst) :
    Clustered settings (tape.tradesWithin window) burst := by
  have hmem := List.mem_reverse.1 (List.mem_of_find?_eq_some h)
  have hqualifies := List.find?_some h
  rw [qualifies, Bool.and_eq_true, decide_eq_true_iff] at hqualifies
  exact ⟨isInfix_of_mem_segment hmem, isChain_of_mem_segment hmem, hqualifies.1⟩

private theorem readBurst_backed (settings : TradeClusteringSettings) {sampled : Prop}
    (hsampled : sampled) (burst : Burst) :
    (readBurst settings burst).Backed sampled
      (totalOn burst.trades .no ≤ totalOn burst.trades .yes) := by
  simp only [readBurst]
  refine Backed.ite (fun _ => silent_backed _) fun _ => ?_
  have hone : NonNegative 1.0 := nonNegative_of_sign rfl
  have hdominance : NonNegative ((SideTotals.ofTrades burst.trades).larger.toFloat /
      (SideTotals.ofTrades burst.trades).total.toFloat) :=
    (nonNegative_toFloat _).div (nonNegative_toFloat _)
  have hintensity : NonNegative (if burst.seconds ≤ 0.0 then 1.0
      else FloatOrder.min (Float.ofNat burst.trades.length / burst.seconds) 1.0) := by
    split
    · exact hone
    · rename_i hlasting
      exact ((nonNegative_ofNat _).div (nonNegative_of_not_le_zero hlasting)).min hone
  generalize (SideTotals.ofTrades burst.trades).larger.toFloat /
    (SideTotals.ofTrades burst.trades).total.toFloat = dominance at hdominance
  generalize (if burst.seconds ≤ 0.0 then 1.0
    else FloatOrder.min (Float.ofNat burst.trades.length / burst.seconds) 1.0) = intensity at hintensity
  refine dominant_backed burst.trades (fun side => side.sign * dominance * intensity) hsampled ?_
    ((hone.mul hdominance).mul hintensity).not_lt_zero
  show -1.0 * dominance * intensity = -(1.0 * dominance * intensity)
  rw [float_neg_mul, float_neg_mul]

private theorem read_backed (settings : TradeClusteringSettings) (window : Span) (tape : Tape) :
    (read settings window tape).Backed
      (settings.minBurstTrades.toNat ≤ (tape.tradesWithin window).length ∧
        ∃ burst ∈ newest? settings window tape, Clustered settings (tape.tradesWithin window) burst)
      (∃ burst ∈ newest? settings window tape,
        totalOn burst.trades .no ≤ totalOn burst.trades .yes) := by
  rw [read_eq]
  refine Backed.ite (fun _ => silent_backed _) fun henough => ?_
  cases hnewest : newest? settings window tape with
  | none => exact silent_backed _
  | some burst =>
    have hburst := readBurst_backed settings
      (And.intro (not_lt.1 henough) (clustered_of_newest? hnewest)) burst
    simpa using hburst

end TradeClustering

namespace Signal

/-- The window holds the sample that the settings ask for. -/
def Sampled (tape : Tape) (window : Span) : Signal → Prop
  | tradeConcentration s => s.minTrades.toNat ≤ (tape.tradesWithin window).length
  | flowAsymmetry s => s.minTrades.toNat ≤ (tape.tradesWithin window).length
  | spreadVelocity s => s.minSnapshots.toNat ≤ (tape.quotesWithin window).length
  | volumeDivergence s => s.minTrades.toNat ≤ (tape.tradesWithin window).length
  | tradeClustering s => s.minBurstTrades.toNat ≤ (tape.tradesWithin window).length ∧
      ∃ burst ∈ TradeClustering.newest? s window tape,
        TradeClustering.Clustered s (tape.tradesWithin window) burst
  | tradeImbalance s => s.minTrades.toNat ≤ (tape.tradesWithin window).length

/-- YES leads by the measure of the signal. -/
def YesLeads (tape : Tape) (window : Span) : Signal → Prop
  | tradeConcentration _ | volumeDivergence _ =>
    totalOn (tape.tradesWithin window) .no ≤ totalOn (tape.tradesWithin window) .yes
  | tradeClustering s => ∃ burst ∈ TradeClustering.newest? s window tape,
      totalOn burst.trades .no ≤ totalOn burst.trades .yes
  | tradeImbalance _ =>
    totalOn (tape.tradesWithin window) .no < totalOn (tape.tradesWithin window) .yes
  | spreadVelocity _ => SpreadVelocity.Rises (tape.quotesWithin window)
  | flowAsymmetry _ => FlowAsymmetry.Outbids (tape.tradesWithin window)

private theorem readWithin_backed (signal : Signal) {tape : Tape}
    (hvalid : ∀ r ∈ tape.records, r.isValid = true) (window baseline : Span) :
    (signal.readWithin tape window baseline).Backed (signal.Sampled tape window)
      (signal.YesLeads tape window) := by
  cases signal with
  | tradeConcentration s => exact TradeConcentration.read_backed s window tape
  | flowAsymmetry s => exact FlowAsymmetry.read_backed s window tape
  | spreadVelocity s => exact SpreadVelocity.read_backed s window hvalid
  | volumeDivergence s => exact VolumeDivergence.read_backed s window baseline tape
  | tradeClustering s => exact TradeClustering.read_backed s window tape
  | tradeImbalance s => exact TradeImbalance.read_backed s window tape

/-- A signal of a valid configuration that fires has its sample, and the sign of its score is the side
that leads. Without the sample it is silent. -/
theorem scores_are_backed {config : Config} (hconfig : config.fault? = none) {signal : Signal}
    (hsignal : signal ∈ config.listed) {records : List Record}
    (hrecords : ∀ record ∈ records, record.isValid = true) (instrument : String) (retention : Span) :
    let tape := (Tape.empty instrument retention).updateAll records
    ∃ window baseline reading, signal.windows = .ok (window, baseline) ∧
      signal.read tape = .ok reading ∧
      (reading.fired = true → signal.Sampled tape window ∧
        (0.0 < reading.score ↔ signal.YesLeads tape window) ∧
        (reading.score < 0.0 ↔ ¬signal.YesLeads tape window)) ∧
      (¬signal.Sampled tape window → reading.score = 0.0 ∧ reading.confidence = 0.0) := by
  intro tape
  obtain ⟨window, baseline, hwindows, -⟩ := Config.windows_of_listed hconfig hsignal
  have hvalid : ∀ r ∈ tape.records, r.isValid = true :=
    Tape.updateAll_valid hrecords (by simp [Tape.empty])
  have hbacked := signal.readWithin_backed hvalid window baseline
  exact ⟨window, baseline, _, hwindows, read_ok hwindows tape,
    hbacked.of_fired (signal.readWithin_inBounds tape window baseline), hbacked.silent⟩

/-- Mostly YES contracts, in records that did not arrive in the order of their times. -/
theorem scores_are_backed_of_late_trades :
    let config : Config := {}
    let signal : Signal := .tradeImbalance {}
    let records : List Record := [.trade ⟨"RAIN", 2000, .yes, 10, 40⟩, .trade ⟨"RAIN", 0, .yes, 10, 40⟩,
      .trade ⟨"RAIN", 1000, .no, 3, 61⟩, .trade ⟨"RAIN", 4000, .yes, 10, 40⟩,
      .trade ⟨"RAIN", 3000, .no, 2, 61⟩]
    let tape := (Tape.empty "RAIN" 3600000).updateAll records
    config.fault? = none ∧ signal ∈ config.listed ∧ (∀ record ∈ records, record.isValid = true) ∧
      ∃ window baseline reading, signal.windows = .ok (window, baseline) ∧
        signal.read tape = .ok reading ∧ 0.0 < reading.score ∧ signal.Sampled tape window ∧
        signal.YesLeads tape window := by
  intro config signal records tape
  have hconfig : config.fault? = none := by decide +kernel
  have hsignal : signal ∈ config.listed := by
    simp [config, signal, Config.listed, SignalSettings.all]
  have hrecords : ∀ record ∈ records, record.isValid = true := by decide +kernel
  obtain ⟨window, baseline, reading, hwindows, hread, hfired, -⟩ :=
    scores_are_backed hconfig hsignal hrecords "RAIN" 3600000
  have hpositive : ∃ reading, signal.read tape = .ok reading ∧ 0.0 < reading.score :=
    exists_ok_of_any (by decide +kernel)
  obtain ⟨same, hsame, hpositive⟩ := hpositive
  obtain rfl : reading = same := Except.ok.inj (hread.symm.trans hsame)
  obtain ⟨hsampled, hyes, -⟩ := hfired (fired_of_side (.inl hpositive))
  exact ⟨hconfig, hsignal, hrecords, window, baseline, reading, hwindows, hread, hpositive, hsampled,
    hyes.1 hpositive⟩

end Signal

end SignalDesk
