import SignalDesk.Proofs.Clustering
import SignalDesk.Proofs.Composer

/-!
# Relocated markets

A market at another time and under another name. A window or a retention that would begin before the
calendar does is cut off at its beginning, where no record is. So a tape of records with times that
the calendar has keeps and shows the same records wherever it lies.
-/

namespace SignalDesk

/-- A shift of all times and a renaming of instruments that keeps them apart and names blank. -/
structure Relocation where
  shift : Span
  rename : String → String
  injective : Function.Injective rename
  blank (name : String) : isBlankText (rename name) = isBlankText name

variable {m : Relocation}

theorem Relocation.rename_beq (m : Relocation) (name other : String) :
    (m.rename name == m.rename other) = (name == other) := by
  rw [Bool.eq_iff_iff, beq_iff_eq, beq_iff_eq, m.injective.eq_iff]

def Trade.relocate (m : Relocation) (trade : Trade) : Trade :=
  { trade with instrument := m.rename trade.instrument, ts := trade.ts + m.shift }

def Quote.relocate (m : Relocation) (quote : Quote) : Quote :=
  { quote with instrument := m.rename quote.instrument, ts := quote.ts + m.shift }

private theorem SideTotals.ofTrades_relocate (trades : List Trade) :
    ofTrades (trades.map (Trade.relocate m)) = ofTrades trades := by
  rw [ofTrades, List.foldl_map]
  rfl

namespace Record

def relocate (m : Relocation) : Record → Record
  | trade t => trade (t.relocate m)
  | quote q => quote (q.relocate m)

@[simp] theorem relocate_ts (m : Relocation) (record : Record) :
    (record.relocate m).ts = record.ts + m.shift := by
  cases record <;> rfl

@[simp] theorem relocate_instrument (m : Relocation) (record : Record) :
    (record.relocate m).instrument = m.rename record.instrument := by
  cases record <;> rfl

private theorem relocate_trade? (m : Relocation) (record : Record) :
    (record.relocate m).trade? = record.trade?.map (Trade.relocate m) := by
  cases record <;> rfl

private theorem relocate_quote? (m : Relocation) (record : Record) :
    (record.relocate m).quote? = record.quote?.map (Quote.relocate m) := by
  cases record <;> rfl

/-- What is wrong with a record has nothing to do with its time and its name. -/
theorem relocate_fault? (m : Relocation) (record : Record) :
    (record.relocate m).fault? = record.fault? := by
  unfold fault?
  rw [relocate_instrument, m.blank]
  cases record <;> rfl

/-- The calendar has the time of a record, also when it is shifted. -/
def Dated (m : Relocation) (record : Record) : Prop :=
  Timestamp.inRange record.ts = true ∧ Timestamp.inRange (record.ts + m.shift) = true

instance (m : Relocation) (record : Record) : Decidable (record.Dated m) :=
  inferInstanceAs (Decidable (_ ∧ _))

end Record

private theorem dropWhile_congr {α : Type} {p q : α → Bool} {items : List α}
    (h : ∀ a ∈ items, p a = q a) : items.dropWhile p = items.dropWhile q := by
  induction items with
  | nil => rfl
  | cons a items ih =>
    rw [List.dropWhile_cons, List.dropWhile_cons, h a List.mem_cons_self,
      ih fun b hb => h b (List.mem_cons_of_mem a hb)]

private theorem Timestamp.horizon_le_iff {ts other : Timestamp} {span : Span}
    (hts : Timestamp.inRange ts = true) (hother : Timestamp.inRange other = true)
    (hspan : 0 ≤ span) : ts.horizon span ≤ other ↔ ts - span ≤ other := by
  rw [horizon_eq hts hspan]
  rw [inRange_iff] at hother
  grind

namespace Tape

def relocate (m : Relocation) (tape : Tape) : Tape where
  instrument := m.rename tape.instrument
  retention := tape.retention
  records := tape.records.map (Record.relocate m)
  latest := tape.latest.map fun ts => ts + m.shift

/-- All records and the time of the latest are dated, and nothing in the future is dropped. -/
structure Dated (m : Relocation) (tape : Tape) : Prop where
  retention : 0 ≤ tape.retention
  records : ∀ record ∈ tape.records, record.Dated m
  latest : ∀ ts ∈ tape.latest, Timestamp.inRange ts = true ∧ Timestamp.inRange (ts + m.shift) = true

variable {tape : Tape}

theorem empty_dated (instrument : String) {retention : Span} (h : 0 ≤ retention) :
    (empty instrument retention).Dated m :=
  ⟨h, by simp [empty], by simp [empty]⟩

/-- Records are dropped by their age alone, also where the retention reaches back too far. -/
theorem update_records {record : Record} (hretention : 0 ≤ tape.retention)
    (hrecords : ∀ r ∈ tape.records, Timestamp.inRange r.ts = true)
    (hrecord : Timestamp.inRange record.ts = true) :
    (tape.update record).records =
      (tape.records ++ [record]).dropWhile fun r => r.ts < record.ts - tape.retention := by
  have hall : ∀ r ∈ tape.records ++ [record], Timestamp.inRange r.ts = true := by
    simpa [or_imp, forall_and] using ⟨hrecords, hrecord⟩
  rw [Timestamp.inRange_iff] at hrecord
  unfold update Timestamp.before?
  by_cases hreach : earliest ≤ record.ts - tape.retention
  · have hlate : record.ts - tape.retention ≤ SignalDesk.latest := by grind
    rw [if_pos ⟨hreach, hlate⟩]
  · have hearly : ¬(earliest ≤ record.ts - tape.retention ∧
        record.ts - tape.retention ≤ SignalDesk.latest) := fun h => hreach h.1
    rw [if_neg hearly]
    refine (List.dropWhile_eq_self_iff.2 fun hne => ?_).symm
    have hfirst := Timestamp.inRange_iff.1 (hall _ (List.getElem_mem hne))
    rw [decide_eq_true_iff]
    grind

theorem Dated.inRange (h : tape.Dated m) : ∀ r ∈ tape.records, Timestamp.inRange r.ts = true :=
  fun r hr => (h.records r hr).1

private theorem Dated.relocate_inRange (h : tape.Dated m) :
    ∀ r ∈ (tape.relocate m).records, Timestamp.inRange r.ts = true := by
  intro r hr
  obtain ⟨record, hrecord, rfl⟩ := List.mem_map.1 hr
  rw [Record.relocate_ts]
  exact (h.records record hrecord).2

theorem update_relocate (h : tape.Dated m) {record : Record} (hrecord : record.Dated m) :
    (tape.update record).relocate m = (tape.relocate m).update (record.relocate m) := by
  have hrecords : ((tape.relocate m).update (record.relocate m)).records =
      (tape.update record).records.map (Record.relocate m) := by
    have hshifted : Timestamp.inRange (record.relocate m).ts = true := by
      rw [Record.relocate_ts]
      exact hrecord.2
    have hretention : 0 ≤ (tape.relocate m).retention := h.retention
    rw [update_records h.retention h.inRange hrecord.1,
      update_records hretention h.relocate_inRange hshifted]
    simp only [relocate, ← List.map_singleton, ← List.map_append, List.dropWhile_map]
    congr 2
    funext r
    simp only [Function.comp, Record.relocate_ts, decide_eq_decide]
    grind
  have hrest : (tape.relocate m).update (record.relocate m) =
      { (tape.update record).relocate m with
        records := ((tape.relocate m).update (record.relocate m)).records } := by
    simp only [update, relocate, Record.relocate_ts, Option.map_some]
  rw [hrest, hrecords]
  rfl

theorem update_dated (h : tape.Dated m) {record : Record} (hrecord : record.Dated m) :
    (tape.update record).Dated m := by
  refine ⟨h.retention, ?_, ?_⟩
  · rw [update_records h.retention h.inRange hrecord.1]
    intro r hr
    have hmem := (List.dropWhile_sublist _).subset hr
    rcases List.mem_append.1 hmem with hr | hr
    · exact h.records r hr
    · exact List.mem_singleton.1 hr ▸ hrecord
  · intro ts hts
    cases hts
    exact hrecord

/-- A window shows records by their age alone. -/
theorem within_eq_of_inRange {ts : Timestamp} (hlatest : tape.latest = some ts)
    (hrecords : ∀ r ∈ tape.records, Timestamp.inRange r.ts = true)
    (hts : Timestamp.inRange ts = true) {window : Span} (hwindow : 0 ≤ window) :
    tape.within window = tape.records.filter fun r => ts - window ≤ r.ts := by
  rw [within_eq_filter hlatest]
  refine List.filter_congr fun r hr => ?_
  rw [decide_eq_decide]
  exact Timestamp.horizon_le_iff hts (hrecords r hr) hwindow

/-- The last trade before a window is also found by age alone. -/
theorem lastTradeBefore?_eq_of_inRange {ts : Timestamp} (hlatest : tape.latest = some ts)
    (hrecords : ∀ r ∈ tape.records, Timestamp.inRange r.ts = true)
    (hts : Timestamp.inRange ts = true) {window : Span} (hwindow : 0 ≤ window) :
    tape.lastTradeBefore? window =
      (tape.records.reverse.dropWhile fun r => ts - window ≤ r.ts).findSome? Record.trade? := by
  have hdrop : tape.records.reverse.dropWhile (fun r => ts.horizon window ≤ r.ts) =
      tape.records.reverse.dropWhile fun r => ts - window ≤ r.ts := by
    refine dropWhile_congr fun r hr => ?_
    rw [decide_eq_decide]
    exact Timestamp.horizon_le_iff hts (hrecords r (List.mem_reverse.1 hr)) hwindow
  rw [← hdrop]
  simp only [lastTradeBefore?, windowStart?, hlatest, Option.map_some]
  rfl

private theorem within_relocate (h : tape.Dated m) {window : Span} (hwindow : 0 ≤ window) :
    (tape.relocate m).within window = (tape.within window).map (Record.relocate m) := by
  cases hlatest : tape.latest with
  | none =>
    have hlatest' : (tape.relocate m).latest = none := by rw [relocate, hlatest]; rfl
    simp only [within, windowStart?, hlatest, hlatest', Option.map_none, List.map_nil]
  | some ts =>
    have hlatest' : (tape.relocate m).latest = some (ts + m.shift) := by rw [relocate, hlatest]; rfl
    obtain ⟨hts, hts'⟩ := h.latest ts hlatest
    rw [within_eq_of_inRange hlatest h.inRange hts hwindow,
      within_eq_of_inRange hlatest' h.relocate_inRange hts' hwindow]
    simp only [relocate, List.filter_map]
    congr 2
    funext r
    simp only [Function.comp, Record.relocate_ts, decide_eq_decide]
    grind

private theorem tradesWithin_relocate (h : tape.Dated m) {window : Span} (hwindow : 0 ≤ window) :
    (tape.relocate m).tradesWithin window = (tape.tradesWithin window).map (Trade.relocate m) := by
  simp only [tradesWithin, within_relocate h hwindow, List.filterMap_map, List.map_filterMap,
    Function.comp_def, Record.relocate_trade?]

private theorem quotesWithin_relocate (h : tape.Dated m) {window : Span} (hwindow : 0 ≤ window) :
    (tape.relocate m).quotesWithin window = (tape.quotesWithin window).map (Quote.relocate m) := by
  simp only [quotesWithin, within_relocate h hwindow, List.filterMap_map, List.map_filterMap,
    Function.comp_def, Record.relocate_quote?]

theorem latestQuote?_relocate (tape : Tape) :
    (tape.relocate m).latestQuote? = tape.latestQuote?.map (Quote.relocate m) := by
  simp only [latestQuote?, relocate, ← List.map_reverse, List.findSome?_map, Function.comp_def,
    Record.relocate_quote?, List.map_findSome?]

private theorem lastTradeBefore?_relocate (h : tape.Dated m) {window : Span} (hwindow : 0 ≤ window) :
    (tape.relocate m).lastTradeBefore? window =
      (tape.lastTradeBefore? window).map (Trade.relocate m) := by
  cases hlatest : tape.latest with
  | none =>
    have hlatest' : (tape.relocate m).latest = none := by rw [relocate, hlatest]; rfl
    simp only [lastTradeBefore?, windowStart?, hlatest, hlatest', Option.map_none]
  | some ts =>
    have hlatest' : (tape.relocate m).latest = some (ts + m.shift) := by rw [relocate, hlatest]; rfl
    obtain ⟨hts, hts'⟩ := h.latest ts hlatest
    have hage : ((fun r : Record => decide (ts + m.shift - window ≤ r.ts)) ∘ Record.relocate m) =
        fun r => decide (ts - window ≤ r.ts) := by
      funext r
      simp only [Function.comp, Record.relocate_ts, decide_eq_decide]
      grind
    rw [lastTradeBefore?_eq_of_inRange hlatest h.inRange hts hwindow,
      lastTradeBefore?_eq_of_inRange hlatest' h.relocate_inRange hts' hwindow]
    simp only [relocate, ← List.map_reverse, List.dropWhile_map, hage, List.findSome?_map,
      Function.comp_def, Record.relocate_trade?, List.map_findSome?]

private theorem tradeFlow_relocate (h : tape.Dated m) {window : Span} (hwindow : 0 ≤ window) :
    (tape.relocate m).tradeFlow window = tape.tradeFlow window := by
  simp only [tradeFlow, tradesWithin_relocate h hwindow, List.length_map,
    SideTotals.ofTrades_relocate]

private theorem quoteEnds?_relocate (h : tape.Dated m) {window : Span} (hwindow : 0 ≤ window) :
    (tape.relocate m).quoteEnds? window =
      (tape.quoteEnds? window).map fun ends => (ends.1.relocate m, ends.2.relocate m) :=
  quoteEnds?_map (quotesWithin_relocate h hwindow)

private theorem minutesBetween_relocate (first last : Quote) :
    minutesBetween (first.relocate m) (last.relocate m) = minutesBetween first last := by
  simp only [minutesBetween, Quote.relocate, Int.add_sub_add_right]

private theorem dollarVolume_relocate (h : tape.Dated m) {window : Span} (hwindow : 0 ≤ window) :
    (tape.relocate m).dollarVolume window = tape.dollarVolume window := by
  simp only [dollarVolume, quoteEnds?_relocate h hwindow]
  cases tape.quoteEnds? window <;> rfl

private theorem volumeRate_relocate (h : tape.Dated m) {window : Span} (hwindow : 0 ≤ window) :
    (tape.relocate m).volumeRate window = tape.volumeRate window := by
  simp only [volumeRate, quoteEnds?_relocate h hwindow]
  cases tape.quoteEnds? window with
  | none => rfl
  | some ends =>
    simp only [Option.map_some, minutesBetween_relocate]
    rfl

private theorem priceChange_relocate (h : tape.Dated m) {window : Span} (hwindow : 0 ≤ window) :
    (tape.relocate m).priceChange window = tape.priceChange window := by
  simp only [priceChange, quoteEnds?_relocate h hwindow]
  cases tape.quoteEnds? window <;> rfl

end Tape

private theorem TradeConcentration.read_relocate (settings : TradeConcentrationSettings)
    {window : Span} {tape : Tape} (h : tape.Dated m) (hwindow : 0 ≤ window) :
    TradeConcentration.read settings window (tape.relocate m) =
      TradeConcentration.read settings window tape := by
  have hcounts (trades : List Trade) :
      (trades.map (Trade.relocate m)).map Trade.count = trades.map Trade.count := by
    rw [List.map_map]
    rfl
  simp only [TradeConcentration.read, Tape.tradesWithin_relocate h hwindow, List.length_map, hcounts,
    SideTotals.ofTrades_relocate]

private theorem FlowAsymmetry.read_relocate (settings : FlowAsymmetrySettings) {window : Span}
    {tape : Tape} (h : tape.Dated m) (hwindow : 0 ≤ window) :
    FlowAsymmetry.read settings window (tape.relocate m) =
      FlowAsymmetry.read settings window tape := by
  have hmean (trades : List Trade) (side : Side) :
      sideMean (trades.map (Trade.relocate m)) side = sideMean trades side := by
    simp only [sideMean, List.filter_map, List.map_map]
    rfl
  simp only [FlowAsymmetry.read, Tape.tradesWithin_relocate h hwindow, List.length_map, hmean]

private theorem TradeImbalance.read_relocate (settings : TradeImbalanceSettings) {window : Span}
    {tape : Tape} (h : tape.Dated m) (hwindow : 0 ≤ window) :
    TradeImbalance.read settings window (tape.relocate m) =
      TradeImbalance.read settings window tape := by
  simp only [TradeImbalance.read, Tape.tradeFlow_relocate h hwindow]

private theorem VolumeDivergence.read_relocate (settings : VolumeDivergenceSettings)
    {window baseline : Span} {tape : Tape} (h : tape.Dated m) (hwindow : 0 ≤ window)
    (hbaseline : 0 ≤ baseline) :
    VolumeDivergence.read settings window baseline (tape.relocate m) =
      VolumeDivergence.read settings window baseline tape := by
  simp only [VolumeDivergence.read, Tape.tradeFlow_relocate h hwindow,
    Tape.volumeRate_relocate h hwindow, Tape.volumeRate_relocate h hbaseline,
    Tape.priceChange_relocate h hwindow]

namespace SpreadVelocity

def relocatePoint (m : Relocation) (point : SpreadPoint) : SpreadPoint :=
  { point with ts := point.ts + m.shift }

private theorem points_relocate (first : SpreadPoint) (history : List SpreadPoint) :
    points (relocatePoint m first) (history.map (relocatePoint m)) = points first history := by
  simp only [points, List.map_map]
  refine List.map_congr_left fun point _ => ?_
  simp only [Function.comp, relocatePoint, Int.add_sub_add_right]

private theorem read_relocate (settings : SpreadVelocitySettings) {window : Span} {tape : Tape}
    (h : tape.Dated m) (hwindow : 0 ≤ window) :
    read settings window (tape.relocate m) = read settings window tape := by
  have hhistory : (tape.relocate m).spreadHistory window =
      (tape.spreadHistory window).map (relocatePoint m) := by
    simp only [Tape.spreadHistory, Tape.quotesWithin_relocate h hwindow, List.map_map]
    rfl
  have hfit (first last : SpreadPoint) (fit : Stats.LinearFit Float) :
      readFit settings (relocatePoint m first) (relocatePoint m last) fit =
        readFit settings first last fit := rfl
  unfold read
  simp only [hhistory, List.length_map, List.head?_map, List.getLast?_map]
  cases (tape.spreadHistory window).head? with
  | none => rfl
  | some first =>
    cases (tape.spreadHistory window).getLast? with
    | none => rfl
    | some last => simp only [Option.map_some, points_relocate, hfit]

end SpreadVelocity

namespace TradeClustering

private theorem secondsBetween_relocate (m : Relocation) (earlier later : Trade) :
    secondsBetween (earlier.relocate m) (later.relocate m) = secondsBetween earlier later := by
  simp only [secondsBetween, Trade.relocate, Int.add_sub_add_right]

private theorem readBurst_relocate (settings : TradeClusteringSettings) (burst : Burst) :
    readBurst settings (burst.map (Trade.relocate m)) = readBurst settings burst := by
  simp only [readBurst, trades_map, quietBefore_map, List.length_map, SideTotals.ofTrades_relocate,
    seconds_map (secondsBetween_relocate m)]

private theorem read_relocate (settings : TradeClusteringSettings) {window : Span} {tape : Tape}
    (h : tape.Dated m) (hwindow : 0 ≤ window) :
    read settings window (tape.relocate m) = read settings window tape := by
  simp only [read, Tape.tradesWithin_relocate h hwindow, Tape.lastTradeBefore?_relocate h hwindow,
    List.length_map, find?_segment_map (secondsBetween_relocate m)]
  cases (segment settings.burstGapSec (tape.lastTradeBefore? window)
    (tape.tradesWithin window)).reverse.find? (qualifies settings) with
  | none => rfl
  | some burst => simp only [Option.map_some, readBurst_relocate]

end TradeClustering

private theorem Signal.readWithin_relocate {tape : Tape} (h : tape.Dated m) {window baseline : Span}
    (hwindow : 0 ≤ window) (hbaseline : 0 ≤ baseline) (signal : Signal) :
    signal.readWithin (tape.relocate m) window baseline = signal.readWithin tape window baseline := by
  cases signal with
  | tradeConcentration s => exact TradeConcentration.read_relocate s h hwindow
  | flowAsymmetry s => exact FlowAsymmetry.read_relocate s h hwindow
  | spreadVelocity s => exact SpreadVelocity.read_relocate s h hwindow
  | volumeDivergence s => exact VolumeDivergence.read_relocate s h hwindow hbaseline
  | tradeClustering s => exact TradeClustering.read_relocate s h hwindow
  | tradeImbalance s => exact TradeImbalance.read_relocate s h hwindow

/-- The composite of the relocated tape: no number and no reason is different. -/
def Composite.relocate (m : Relocation) (composite : Composite) : Composite :=
  { composite with instrument := m.rename composite.instrument, ts := composite.ts + m.shift }

namespace Composer

/-- The composer of a valid configuration evaluates a tape alike wherever it lies. -/
theorem evaluate_relocate {config : Config} (hvalid : config.fault? = none) {tape : Tape}
    (h : tape.Dated m) : (ofConfig config).evaluate (tape.relocate m) =
      ((ofConfig config).evaluate tape).map (Option.map (Composite.relocate m)) := by
  obtain ⟨window, hactivation, hwindow, -⟩ := Config.activationWindow_of_valid hvalid
  have hgate : (ofConfig config).passesActivation (tape.relocate m) =
      (ofConfig config).passesActivation tape := by
    rw [passesActivation, passesActivation, hactivation]
    exact congrArg (fun volume => Except.ok (decide (_ ≤ volume))) (Tape.dollarVolume_relocate h hwindow)
  have hread : ((ofConfig config).signals.mapM fun signal => signal.read (tape.relocate m)) =
      (ofConfig config).signals.mapM fun signal => signal.read tape := by
    refine mapM_congr fun signal hsignal => ?_
    obtain ⟨window, baseline, hwindows, hbounds, hbounds'⟩ := Config.windows_of_enabled hvalid hsignal
    rw [Signal.read_ok hwindows, Signal.read_ok hwindows,
      signal.readWithin_relocate h hbounds.1 hbounds'.1]
  cases hlatest : tape.latest with
  | none =>
    have hlatest' : (tape.relocate m).latest = none := by rw [Tape.relocate, hlatest]; rfl
    rw [evaluate, evaluate, hlatest, hlatest']
    rfl
  | some ts =>
    have hlatest' : (tape.relocate m).latest = some (ts + m.shift) := by
      rw [Tape.relocate, hlatest]; rfl
    simp only [evaluate, hlatest, hlatest', hgate, hread]
    cases (ofConfig config).passesActivation tape with
    | error abort => rfl
    | ok passes =>
      cases passes with
      | false => rfl
      | true =>
        cases (ofConfig config).signals.mapM fun signal => signal.read tape <;> rfl

end Composer

end SignalDesk
