import SignalDesk.Proofs.Bounds
import SignalDesk.Proofs.Composite
import SignalDesk.Proofs.Desk.Exit

/-!
# Entries of a desk

Whatever records a desk has seen, it opens a position exactly when it holds none and the gate, the
signals, the score, the book and the account all call for one. None of them is asked in vain: an entry
that they call for is never missed.
-/

namespace SignalDesk

open Act FloatValue

namespace Signal

/-- Whether a signal contributes to the composite of a tape: it has an opinion and a weight that is
positive and finite, scaled by its confidence if wanted. -/
def hasVoice (byConfidence : Bool) (tape : Tape) (signal : Signal) : Bool :=
  match signal.read tape with
  | .ok reading =>
    let weight := if byConfidence then signal.weight * reading.confidence else signal.weight
    reading.fired && weight.isFinite && decide (0.0 < weight)
  | .error _ => false

private theorem hasVoice_eq {signal : Signal} {tape : Tape} {reading : Reading} (byConfidence : Bool)
    (h : signal.read tape = .ok reading) :
    signal.hasVoice byConfidence tape =
      WeightedReading.contributes byConfidence ⟨signal.weight, reading.score, reading.confidence⟩ := by
  simp only [hasVoice, h, WeightedReading.contributes, WeightedReading.effectiveWeight]
  generalize (if byConfidence = true then signal.weight * reading.confidence else signal.weight) = weight
  by_cases hfinite : weight.isFinite = true
  · have hpos : (0.0 < weight) ↔ ¬weight ≤ 0.0 := by
      rw [lt_iff isFinite_zero hfinite, le_iff hfinite isFinite_zero, not_le]
    simp [hfinite, hpos, Reading.fired]
  · simp [hfinite]

end Signal

namespace Composer

private theorem countP_rows {signals : List Signal} {readings : List Reading} {tape : Tape}
    (byConfidence : Bool)
    (h : List.Forall₂ (fun signal reading => signal.read tape = .ok reading) signals readings) :
    (signals.zipWith (fun signal reading =>
      (⟨signal.weight, reading.score, reading.confidence⟩ : WeightedReading)) readings).countP
        (WeightedReading.contributes byConfidence) =
      signals.countP (Signal.hasVoice byConfidence tape) := by
  induction h with
  | nil => rfl
  | cons hread hrest ih =>
    rw [List.zipWith_cons_cons, List.countP_cons, List.countP_cons, ih, Signal.hasVoice_eq _ hread]

private theorem actionable_iff {composer : Composer} {tape : Tape} {composite : Composite}
    (h : composer.evaluate tape = .ok (some composite)) :
    composite.actionable = true ↔ composer.settings.minSignals.toNat ≤
      composer.signals.countP (Signal.hasVoice composer.settings.confidenceWeighting tape) := by
  obtain ⟨ts, readings, -, hreadings, rfl⟩ := evaluate_some h
  simp only [compose, decide_eq_true_iff, Fused.ofRows_contributing, rows,
    countP_rows _ hreadings]

end Composer

/-- The score has the sign of a side. -/
def Composite.Leans (composite : Composite) : Side → Prop
  | .yes => 0.0 < composite.score
  | .no => composite.score < 0.0

namespace Composite

variable {composite : Composite} {side : Side}

private theorem direction_iff : composite.direction = some side ↔ composite.Leans side := by
  unfold direction
  cases side with
  | yes =>
    by_cases hpos : 0.0 < composite.score <;> simp [Leans, hpos]
  | no =>
    by_cases hpos : 0.0 < composite.score
    · have hneg : ¬composite.score < 0.0 := float_not_lt_of_le (float_le_of_lt hpos)
      simp [Leans, hpos, hneg]
    · simp [Leans, hpos]

theorem Leans.isNaN (h : composite.Leans side) : composite.score.isNaN = false := by
  cases side with
  | yes => exact isNaN_of_pos h
  | no => exact isNaN_of_neg h

end Composite

private theorem Trader.calledSide?_iff {settings : PositionSettings}
    (hthreshold : settings.entryThreshold.isFinite = true) {composite : Composite} {side : Side} :
    calledSide? settings composite = some side ↔ composite.actionable = true ∧
      composite.Leans side ∧ settings.entryThreshold ≤ composite.score.abs := by
  unfold calledSide?
  split
  · rename_i hweak
    refine iff_of_false (by simp) fun ⟨hactionable, hleans, hstrong⟩ => ?_
    rw [Bool.or_eq_true, Bool.not_eq_true', decide_eq_true_iff] at hweak
    rcases hweak with hweak | hweak
    · rw [hactionable] at hweak
      cases hweak
    · exact float_not_lt_of_le hstrong hweak
  · rename_i hstrong
    rw [Bool.or_eq_true, Bool.not_eq_true', decide_eq_true_iff, not_or, Bool.not_eq_false] at hstrong
    rw [Composite.direction_iff]
    refine ⟨fun hleans => ⟨hstrong.1, hleans, ?_⟩, fun h => h.2.1⟩
    exact (float_not_lt_iff (isNaN_of_isFinite hthreshold) (isNaN_abs hleans.isNaN)).1 hstrong.2

namespace Desk

section decision

variable {settings : PositionSettings} {quote : Option Quote} {ts : Timestamp}
  {composite : Option Composite} {trader trader' : Trader} {account account' : Account}
  {events : List PositionEvent} {mark : Position → Option Int64}

theorem Decision.opens_iff (h : Decision quote ts composite trader account events trader' account')
    (hchecked : ExitsChecked settings quote ts trader account mark) :
    (∃ position, .opened position ∈ events) ↔
      trader.held = none ∧ ¬account.Halted ∧ account.Spares trader.tradeSize ∧
        ∃ called, composite = some called ∧ ∃ side book,
          Trader.calledSide? trader.settings called = some side ∧ quote = some book ∧
          0 < book.askFor side ∧ book.askFor side < 100 := by
  cases h with
  | exited hexit =>
    obtain ⟨hheld, -, closed, reason, rfl⟩ := hchecked.of_exit hexit
    refine iff_of_false (by simp) ?_
    rintro ⟨hfree, -⟩
    rw [hfree] at hheld
    cases hheld
  | ungated hexit hnone =>
    refine iff_of_false (by simp) ?_
    rintro ⟨-, -, -, called, hsome, -⟩
    cases hnone.symm.trans hsome
  | tried hexit hsome hentry =>
    cases hsome
    have hopens := (Trader.attempted_of_yields hentry).opens_iff
    simp only [Option.mem_toList, Option.some.injEq, exists_eq_left']
    exact hopens

theorem Decision.opened_terms (h : Decision quote ts composite trader account events trader' account')
    (hchecked : ExitsChecked settings quote ts trader account mark) {position : Position}
    (hopened : .opened position ∈ events) :
    ∃ called, composite = some called ∧
      Trader.calledSide? trader.settings called = some position.side ∧
      (∃ book, quote = some book ∧ position.entryPrice = book.askFor position.side) ∧
      position.entryTs = .ofTimestamp called.ts ∧ position.size = trader.tradeSize ∧
      Position.contractsFor trader.tradeSize position.entryPrice = .ok position.contracts ∧
      trader'.held = some position := by
  cases h with
  | exited hexit =>
    obtain ⟨-, -, closed, reason, rfl⟩ := hchecked.of_exit hexit
    simp at hopened
  | ungated hexit hnone => cases hopened
  | tried hexit hsome hentry =>
    exact ⟨_, hsome, (Trader.attempted_of_yields hentry).opened_terms (Option.mem_toList.1 hopened)⟩

end decision

variable {config : Config} {instrument : String} {desk desk' : Desk} {account account' : Account}
  {evaluation : Evaluation}

/-- Whatever accepted records came before, a record that is not given up opens a position exactly when
none was held, the gate is passed, enough signals have a voice, the score leans to a side by the
threshold, the book asks for that side at one to ninety-nine cents, and the account is not halted and
has the trade size to spare. The position is what was called for. -/
theorem opens_exactly_when_called (hvalid : config.fault? = none)
    (hdesk : Desk.ofConfig (.ofConfig config) config instrument = .ok desk)
    {visits : List (Record × Account)} (haccepted : ∀ visit ∈ visits, visit.1.Accepted)
    {record : Record} (hrecord : record.Accepted)
    (h : (onRecord (.ofConfig config) record).Yields (desk.afterAll (.ofConfig config) visits, account)
      evaluation (desk', account')) :
    let composer := Composer.ofConfig config
    let now := desk.afterAll composer visits
    let tape := now.tape.update record
    ((∃ position, .opened position ∈ evaluation.events) ↔
      now.trader.held = none ∧
      composer.passesActivation tape = .ok true ∧
      config.composer.minSignals.toNat ≤
        config.signals.enabled.countP (Signal.hasVoice config.composer.confidenceWeighting tape) ∧
      ¬account.Halted ∧ account.Spares config.portfolio.tradeSize ∧
      ∃ composite side book, evaluation.composite = some composite ∧ composite.Leans side ∧
        config.positions.entryThreshold ≤ composite.score.abs ∧ tape.latestQuote? = some book ∧
        0 < book.askFor side ∧ book.askFor side < 100) ∧
    ∀ position, .opened position ∈ evaluation.events →
      (∃ composite book, evaluation.composite = some composite ∧ composite.Leans position.side ∧
        tape.latestQuote? = some book ∧ position.entryPrice = book.askFor position.side) ∧
      position.entryTs = .ofTimestamp record.ts ∧ position.size = config.portfolio.tradeSize ∧
      Position.contractsFor config.portfolio.tradeSize position.entryPrice = .ok position.contracts ∧
      desk'.trader.held = some position := by
  intro composer now tape
  have hsound : now.Sound config := (ofConfig_sound hdesk).1.afterAll composer haccepted
  have hquote : ∀ book ∈ tape.latestQuote?, (Record.quote book).isValid = true :=
    Tape.latestQuote?_valid (Tape.update_valid hrecord.valid hsound.valid)
  have hchecked : ExitsChecked config.positions tape.latestQuote? record.ts now.trader account
      fun position => tape.latestQuote?.map fun book => book.bidFor position.side :=
    fun _ _ _ _ => Trader.checkExit_checked hvalid hsound.trader hquote
  have hthreshold := (Config.pass_iff.1 (Config.fault?_eq_none_iff.1 hvalid)).positions.entryThreshold.1
  have hdecided := recordPlan_decided (onRecord_iff.1 h)
  have htape : desk'.tape = tape := hdecided.tape
  have hdecision := hdecided.decision
  have hcomposite := hdecided.composite
  rw [htape] at hdecision hcomposite
  have hlatest : tape.latest = some record.ts := rfl
  have hgate := Composer.evaluate_isSome_iff hcomposite hlatest
  have hcalled {called : Composite} {side : Side} (hsome : evaluation.composite = some called) :
      Trader.calledSide? now.trader.settings called = some side ↔
        config.composer.minSignals.toNat ≤ config.signals.enabled.countP
          (Signal.hasVoice config.composer.confidenceWeighting tape) ∧
        called.Leans side ∧ config.positions.entryThreshold ≤ called.score.abs := by
    rw [hsome] at hcomposite
    rw [hsound.trader.settings, Trader.calledSide?_iff hthreshold, Composer.actionable_iff hcomposite]
    rfl
  constructor
  · rw [hdecision.opens_iff hchecked, hsound.trader.tradeSize]
    constructor
    · rintro ⟨hfree, hopen, hspares, called, hsome, side, book, hside, hbook, hprice⟩
      obtain ⟨hvoices, hleans, hstrong⟩ := (hcalled hsome).1 hside
      exact ⟨hfree, hgate.1 (by rw [hsome]; rfl), hvoices, hopen, hspares, called, side, book, hsome,
        hleans, hstrong, hbook, hprice⟩
    · rintro ⟨hfree, -, hvoices, hopen, hspares, called, side, book, hsome, hleans, hstrong, hbook,
        hprice⟩
      exact ⟨hfree, hopen, hspares, called, hsome, side, book,
        (hcalled hsome).2 ⟨hvoices, hleans, hstrong⟩, hbook, hprice⟩
  · intro position hopened
    obtain ⟨called, hsome, hside, ⟨book, hbook, hprice⟩, hts, hsize, hcontracts, hheld⟩ :=
      hdecision.opened_terms hchecked hopened
    have hdated : called.ts = record.ts := by
      rw [hsome] at hcomposite
      exact evaluate_ts hcomposite rfl
    rw [hdated] at hts
    rw [hsound.trader.tradeSize] at hsize hcontracts
    exact ⟨⟨called, book, hsome, ((hcalled hsome).1 hside).2.1, hbook, hprice⟩, hts, hsize,
      hcontracts, hheld⟩

theorem opens_exactly_when_called_of_large_trade :
    let config : Config := {
      activation := { dollarVolume := 0.0 }
      composer := { minSignals := 1 }
      signals := { tradeImbalance := { minTrades := 1 } } }
    let balance : Decimal := .ofInt64 500
    let account : Account :=
      .live ⟨balance, balance, balance, .zero, 0, .zero, false, balance, .ofInt64 1⟩
    let visits : List (Record × Account) := [(.quote ⟨"RAIN", 0, 49, 48, 50, 0, 0⟩, account)]
    let record : Record := .trade ⟨"RAIN", 1000, .yes, 100, 50⟩
    let composer := Composer.ofConfig config
    ∃ desk, Desk.ofConfig composer config "RAIN" = .ok desk ∧
      let now := desk.afterAll composer visits
      ∃ evaluation desk' account',
        (onRecord composer record).Yields (now, account) evaluation (desk', account') ∧
          composer.passesActivation (now.tape.update record) = .ok true ∧ ¬account.Halted ∧
          ∃ position, .opened position ∈ evaluation.events ∧
            position.size = config.portfolio.tradeSize ∧ position.entryTs = .ofTimestamp 1000 := by
  intro config balance account visits record composer
  have hvalid : config.fault? = none := by decide +kernel
  have haccepted : ∀ visit ∈ visits, visit.1.Accepted := by decide +kernel
  have hrecord : record.Accepted := by decide +kernel
  have hrun : ∃ desk, Desk.ofConfig composer config "RAIN" = .ok desk ∧
      ((onRecord composer record (desk.afterAll composer visits, account)).outcome.toOption.any
        fun evaluation => decide (∃ event ∈ evaluation.events, event = .opened event.position)) =
          true :=
    exists_ok_of_any (by decide +kernel)
  obtain ⟨desk, hdesk, hopened⟩ := hrun
  obtain ⟨evaluation, hevaluation, event, hmem, hevent⟩ := exists_ok_of_any hopened
  rw [hevent] at hmem
  have hyields := yields_of_outcome hevaluation
  obtain ⟨hiff, hterms⟩ := opens_exactly_when_called hvalid hdesk haccepted hrecord hyields
  obtain ⟨-, hgate, -, hopen, -⟩ := hiff.1 ⟨_, hmem⟩
  obtain ⟨-, hts, hsize, -⟩ := hterms _ hmem
  exact ⟨desk, hdesk, evaluation, _, _, hyields, hgate, hopen, _, hmem, hsize, hts⟩

end Desk

end SignalDesk
