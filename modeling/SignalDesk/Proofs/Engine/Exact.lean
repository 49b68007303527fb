import SignalDesk.Proofs.Engine.Attempts
import SignalDesk.Proofs.Engine.Range
import SignalDesk.Proofs.Tape.Exact
import SignalDesk.Proofs.Time.Instant

/-!
# Exact arithmetic of an engine

Between a record that is accepted and its evaluation no word wraps around and no time leaves the
calendar unnoticed. The settings of a valid configuration are small enough for their spans and for the
retention that is summed of them, every record that a desk holds has been accepted, and a position that
it holds was opened at a price in cents and at a time that the calendar has.
-/

namespace SignalDesk

namespace Span

/-- A number of seconds is the same with a sign and as a span. -/
structure ExactSeconds (seconds : UInt64) : Prop where
  word : seconds.toInt64.toInt = seconds.toNat
  span : ofSeconds? seconds = some (seconds.toNat * 1000 : Int)

/-- A number of minutes is the same with a sign and as a span. -/
structure ExactMinutes (minutes : UInt64) : Prop where
  word : minutes.toInt64.toInt = minutes.toNat
  span : ofMinutes? minutes = some (minutes.toNat * 60000 : Int)

private theorem exactSeconds_of_le {seconds : UInt64} (h : seconds ≤ maxSpanSeconds) :
    ExactSeconds seconds :=
  ⟨toInt_toInt64 (UInt64.le_iff_toNat_le.1 h), ofSeconds?_eq h⟩

private theorem exactMinutes_of_le {minutes : UInt64}
    (h : Check.minuteSeconds minutes ≤ maxSpanSeconds) : ExactMinutes minutes := by
  have hle := minutes_le h
  exact ⟨toInt_toInt64 (by omega), ofMinutes?_of_le h⟩

end Span

/-- How far back a signal looks. -/
def Signal.lookbackSpan (signal : Signal) : Span :=
  max (signal.windowSecs.toNat * 1000 : Int) (signal.baselineSecs.toNat * 1000)

namespace Config

def lookbackSpan (config : Config) : Span :=
  (config.signals.enabled.map Signal.lookbackSpan).foldl max
    (config.activation.windowSecs.toNat * 1000 : Int)

/-- How far back a tape reaches. -/
def horizon (config : Config) : Span :=
  config.lookbackSpan + (config.engine.retentionMarginSecs.toNat * 1000 : Int)

/-- What is computed from the spans of the settings. -/
structure Exact (config : Config) : Prop where
  windows : ∀ signal ∈ config.listed,
    Span.ExactSeconds signal.windowSecs ∧ Span.ExactSeconds signal.baselineSecs
  activation : Span.ExactSeconds config.activation.windowSecs
  margin : Span.ExactSeconds config.engine.retentionMarginSecs
  timeStop : Span.ExactMinutes config.positions.timeStopMinutes
  lookback : (Composer.ofConfig config).lookback = .ok config.lookbackSpan
  retention : Span.add? config.lookbackSpan (config.engine.retentionMarginSecs.toNat * 1000 : Int) =
    some config.horizon
  horizon_nonneg : 0 ≤ config.horizon

variable {config : Config}

private theorem exactSeconds_of_mem (h : config.fault? = none) (field : String) {seconds : UInt64}
    (hmem : .span field seconds ∈ config.checks) : Span.ExactSeconds seconds :=
  Span.exactSeconds_of_le (span_le_of_mem h field hmem)

private theorem lookback_eq_span (h : config.fault? = none) :
    (Composer.ofConfig config).lookback = .ok config.lookbackSpan := by
  have hsignal : ∀ signal ∈ config.signals.enabled, signal.lookback = .ok signal.lookbackSpan := by
    intro signal hsignal
    obtain ⟨hwindow, hbaseline⟩ := seconds_le_of_listed h (mem_listed_of_enabled hsignal)
    apply Signal.lookback_ok
    rw [Signal.windows, Span.ofSeconds?_eq hwindow, Span.ofSeconds?_eq hbaseline]
    rfl
  have hsignals : (Composer.ofConfig config).signals.mapM Signal.lookback =
      .ok (config.signals.enabled.map Signal.lookbackSpan) := mapM_ok_map hsignal
  have hactivation : (Composer.ofConfig config).activationWindow =
      .ok (config.activation.windowSecs.toNat * 1000 : Int) := by
    have hle : config.activation.windowSecs ≤ maxSpanSeconds :=
      span_le_of_mem h "activation.windowSecs" (by simp [checks, ActivationSettings.checks])
    rw [Composer.activationWindow]
    change orAbort _ (Span.ofSeconds? config.activation.windowSecs) = _
    rw [Span.ofSeconds?_eq hle]
    rfl
  rw [Composer.lookback, hsignals, hactivation]
  rfl

theorem exact_of_valid (h : config.fault? = none) : config.Exact := by
  have hmargin : config.engine.retentionMarginSecs ≤ maxSpanSeconds :=
    span_le_of_mem h "engine.retentionMarginSecs" (by simp [checks])
  obtain ⟨lookback, hlookback, hnonneg, hle⟩ := Composer.lookback_of_valid h
  rw [lookback_eq_span h, Except.ok.injEq] at hlookback
  subst hlookback
  have hword : config.engine.retentionMarginSecs.toNat ≤ 31536000 := UInt64.le_iff_toNat_le.1 hmargin
  have hlookback : 0 ≤ config.lookbackSpan ∧ config.lookbackSpan ≤ (31536000000 : Int) :=
    ⟨hnonneg, hle⟩
  have hhorizon : 0 ≤ config.horizon ∧ config.horizon ≤ (2 * 31536000000 : Int) := by
    unfold horizon
    unfold Span at hlookback ⊢
    omega
  refine ⟨fun signal hsignal => ?_, ?_, Span.exactSeconds_of_le hmargin, ?_, lookback_eq_span h,
    Span.check?_of_le hhorizon.1 hhorizon.2, hhorizon.1⟩
  · obtain ⟨hwindow, hbaseline⟩ := seconds_le_of_listed h hsignal
    exact ⟨Span.exactSeconds_of_le hwindow, Span.exactSeconds_of_le hbaseline⟩
  · exact exactSeconds_of_mem h "activation.windowSecs" (by simp [checks, ActivationSettings.checks])
  · exact Span.exactMinutes_of_le (span_le_of_mem h "positions.timeStopMinutes"
      (by simp [checks, PositionSettings.checks]))

end Config

namespace Position

/-- What is computed from a held position, from the quote that marks it and from the time. -/
structure ExactAt (settings : PositionSettings) (quote : Option Quote) (ts : Timestamp)
    (position : Position) : Prop where
  change : ∀ book ∈ quote, (book.bidFor position.side - position.entryPrice).toInt =
    (book.bidFor position.side).toInt - position.entryPrice.toInt
  negation : ∀ book ∈ quote, (-(book.bidFor position.side - position.entryPrice)).toInt =
    position.entryPrice.toInt - (book.bidFor position.side).toInt
  profit : let price := (quote.map fun book => book.bidFor position.side).getD position.entryPrice
    (price - position.entryPrice).toInt = price.toInt - position.entryPrice.toInt
  age : ∃ entered, Timestamp.inRange entered = true ∧ position.entryTs = .ofTimestamp entered ∧
    Span.check? (ts - entered) = some (ts - entered) ∧
    settings.isOverdue position.entryTs ts =
      .ok (decide ((settings.timeStopMinutes.toNat * 60000 : Int) < ts - entered))

end Position

theorem PositionSettings.isOverdue_eq {settings : PositionSettings}
    (h : settings.timeStop? = some (settings.timeStopMinutes.toNat * 60000 : Int))
    (entered ts : Timestamp) : settings.isOverdue (.ofTimestamp entered) ts =
      .ok (decide ((settings.timeStopMinutes.toNat * 60000 : Int) < ts - entered)) := by
  rw [isOverdue, h, Instant.toNanos_ofTimestamp, Instant.toNanos_ofTimestamp]
  refine congrArg Except.ok (decide_eq_decide.2 ?_)
  rw [← Int.sub_mul]
  exact Int.mul_lt_mul_right (by decide)

namespace Trader

open Plan

/-- The position that a trader holds, if any, was opened at a time that the calendar has. -/
def Entered (trader : Trader) : Prop :=
  ∀ position ∈ trader.held, ∃ ts, Timestamp.inRange ts = true ∧ position.entryTs = .ofTimestamp ts

variable {trader : Trader}

private theorem entered_of_free (h : trader.held = none) : trader.Entered := by
  intro position hposition
  rw [h] at hposition
  exact absurd hposition (Option.not_mem_none _)

theorem Entered.exitPlan_keeps (h : trader.Entered) (quote : Option Quote) (ts : Timestamp) :
    (exitPlan quote ts trader).Keeps Entered :=
  Trader.exitPlan_keeps h (entered_of_free rfl) quote ts

theorem Entered.entryPlan_keeps (h : trader.Entered) {composite : Composite}
    (hts : Timestamp.inRange composite.ts = true) (quote : Option Quote) :
    (entryPlan composite quote trader).Keeps Entered := by
  refine Trader.entryPlan_keeps h h fun book side position _ hopen => ?_
  simp only [Position.openAt, bind_ok_iff, pure_ok_iff] at hopen
  obtain ⟨contracts, -, rfl⟩ := hopen
  intro held hheld
  cases hheld
  exact ⟨composite.ts, hts, rfl⟩

private theorem Sound.exactAt {config : Config} (hconfig : config.fault? = none)
    (h : trader.Sound config) (hentered : trader.Entered) {quote : Option Quote}
    (hquote : ∀ book ∈ quote, (Record.quote book).isValid = true) {ts : Timestamp}
    (hts : Timestamp.inRange ts = true) {position : Position} (hheld : position ∈ trader.held) :
    position.ExactAt config.positions quote ts := by
  have hentry : isCents position.entryPrice = true := by
    obtain ⟨hlow, hhigh⟩ := (h.held position hheld).2.entryPrice
    exact isCents_iff.2 ⟨hlow.le, hhigh.le⟩
  have hbid : ∀ book ∈ quote, isCents (book.bidFor position.side) = true :=
    fun book hbook => Quote.isCents_bidFor (hquote book hbook) position.side
  obtain ⟨entered, hrange, hinstant⟩ := hentered position hheld
  refine ⟨fun book hbook => toInt_sub_of_isCents (hbid book hbook) hentry,
    fun book hbook => toInt_neg_sub_of_isCents (hbid book hbook) hentry,
    toInt_sub_of_isCents (h.isCents_mark hheld hquote) hentry,
    entered, hrange, hinstant, Span.check?_sub hrange hts, ?_⟩
  rw [hinstant]
  exact PositionSettings.isOverdue_eq (Config.timeStop_of_valid hconfig) entered ts

end Trader

namespace Desk

/-- A desk whose records were accepted, with the retention of a configuration. -/
structure Dated (config : Config) (desk : Desk) : Prop where
  accepted : ∀ record ∈ desk.tape.records, record.Accepted
  retention : desk.tape.retention = config.horizon
  trader : desk.trader.Entered

structure Exact (config : Config) (record : Record) (desk : Desk) : Prop where
  kept : (desk.tape.update record).records =
    (if earliest ≤ record.ts - config.horizon then
      desk.tape.records.dropWhile fun r => r.ts < record.ts - config.horizon
    else desk.tape.records) ++ [record]
  tape : (desk.tape.update record).Exact
  held : ∀ position ∈ desk.trader.held,
    position.ExactAt config.positions (desk.tape.update record).latestQuote? record.ts

variable {config : Config} {desk : Desk} {record : Record}

private theorem ofConfig_dated (h : config.fault? = none) {instrument : String}
    (hdesk : Desk.ofConfig (.ofConfig config) config instrument = .ok desk) : desk.Dated config := by
  have hexact := Config.exact_of_valid h
  simp only [Desk.ofConfig, hexact.lookback, hexact.margin.span, bind_ok_iff, pure_ok_iff,
    orAbort_ok_iff, Except.ok.injEq, Option.some.injEq] at hdesk
  obtain ⟨_, rfl, _, rfl, retention, hretention, rfl⟩ := hdesk
  rw [hexact.retention, Option.some.injEq] at hretention
  exact ⟨by simp [Tape.empty], hretention.symm, Trader.entered_of_free rfl⟩

theorem Dated.onRecord (h : desk.Dated config) (hrecord : record.Accepted) (composer : Composer)
    (account : Account) : (onRecord composer record (desk, account)).state.1.Dated config := by
  have hkeeps : (recordPlan composer record desk).Keeps (Dated config) :=
    recordPlan_leads (fun _ hd => hd) (fun _ _ hd ht => ⟨hd.accepted, hd.retention, ht⟩)
      (fun _ _ hd ht => ⟨hd.accepted, hd.retention, ht⟩) (fun _ hd => hd.trader)
      (fun quote ts _ ht => ht.exitPlan_keeps quote ts)
      (fun composite quote _ hts ht => ht.entryPlan_keeps (hts ▸ hrecord.dated) quote) composer
      ⟨Tape.update_forall hrecord h.accepted, h.retention, h.trader⟩
  exact hkeeps.run desk account

theorem Dated.exact (hconfig : config.fault? = none) (h : desk.Dated config)
    (hsound : desk.Sound config) (hrecord : record.Accepted) : desk.Exact config record := by
  have haccepted := Tape.update_forall hrecord h.accepted
  refine ⟨?_, Tape.exact_of_accepted haccepted ?_, fun position hheld => ?_⟩
  · have hkept := Tape.update_records_of_dated hrecord.dated
      (h.retention ▸ (Config.exact_of_valid hconfig).horizon_nonneg)
    rwa [h.retention] at hkept
  · rintro now ⟨⟩
    exact hrecord.dated
  · exact hsound.trader.exactAt hconfig h.trader
      (Tape.latestQuote?_valid (Tape.update_valid hrecord.valid hsound.valid)) hrecord.dated hheld

end Desk

namespace Engine

def Dated (config : Config) (engine : Engine) : Prop :=
  ∀ instrument desk, engine.deskFor instrument = .ok desk → desk.Dated config

variable {config : Config} {engine : Engine}

private theorem ofConfig_dated (hconfig : config.fault? = none) (h : ofConfig config = .ok engine) :
    engine.Dated config := by
  simp only [ofConfig, bind_ok_iff, pure_ok_iff] at h
  obtain ⟨account, -, rfl⟩ := h
  exact fun instrument desk hdesk => Desk.ofConfig_dated hconfig hdesk

theorem Dated.handle (h : engine.Dated config) (command : Command) :
    (handle command engine).state.Dated config := by
  have htried := handle_tried command engine
  generalize (Engine.handle command engine).state = engine' at htried ⊢
  generalize reported? command engine = evaluation? at htried
  cases htried with
  | kept => exact h
  | cleared => exact h
  | worked hrecord hdesk hattempt =>
    have haccepted := Record.parse_accepted (Command.record?_message.1 hrecord)
    have hdesk' := (h _ _ hdesk).onRecord haccepted engine.composer engine.account
    rw [hattempt] at hdesk'
    exact withDesk_forall h hdesk' _

theorem Dated.afterAll (h : engine.Dated config) (commands : List Command) :
    (engine.afterAll commands).Dated config :=
  afterAll_induction commands (fun _ command h => h.handle command) h

/-- In whatever state commands have left an engine of a valid configuration, given up or not, what it
computes in words and in times from an accepted record on is what the whole numbers are. Totals of
contracts are exact or stay at the largest word, and going back from a time of the calendar is exact or
noticed. -/
theorem arithmetic_is_exact (hconfig : config.fault? = none) (hengine : ofConfig config = .ok engine)
    (commands : List Command) :
    config.Exact ∧
    (∀ earlier later : Timestamp, Timestamp.inRange earlier = true → Timestamp.inRange later = true →
      Span.check? (later - earlier) = some (later - earlier)) ∧
    (∀ (ts : Timestamp) (span : Span), Timestamp.inRange ts = true → 0 ≤ span →
      ts.before? span = if earliest ≤ ts - span then some (ts - span) else none) ∧
    (∀ trades side, ((SideTotals.ofTrades trades).on side).toNat = totalOn trades side) ∧
    (∀ trades, (SideTotals.ofTrades trades).total.toNat =
      min (contractsOn trades .yes + contractsOn trades .no) (UInt64.size - 1)) ∧
    (∀ counts, (Contracts.sum counts).toNat =
      min (counts.map UInt64.toNat).sum (UInt64.size - 1)) ∧
    ∀ text record, (Command.message text).record? = some record →
      ∃ desk, (engine.afterAll commands).deskFor record.instrument = .ok desk ∧
        desk.Exact config record := by
  have hsound := (ofConfig_sound hengine).afterAll commands
  have hdated := (ofConfig_dated hconfig hengine).afterAll commands
  refine ⟨Config.exact_of_valid hconfig, fun _ _ => Span.check?_sub, fun _ _ => Timestamp.before?_eq,
    SideTotals.toNat_ofTrades, SideTotals.toNat_total, Contracts.toNat_sum, ?_⟩
  intro text record hrecord
  have haccepted := Record.parse_accepted (Command.record?_message.1 hrecord)
  obtain ⟨desk, hdesk⟩ := deskFor_ok hconfig hsound record.instrument
  exact ⟨desk, hdesk, (hdated _ _ hdesk).exact hconfig (hsound.deskFor hdesk) haccepted⟩

theorem arithmetic_is_exact_of_extremes :
    let config : Config := {
      activation := { dollarVolume := 0.0 }
      composer := { minSignals := 1 }
      signals := { tradeImbalance := { minTrades := 1 } } }
    let commands : List Command := [
      .message "[\"quote\", \"RAIN\", 8210266876799999, 99, 98, 99, 0, 0]",
      .message "[\"trade\", \"RAIN\", 8210266876799999, \"yes\", 1000000000, 99]"]
    let record : Record :=
      .quote ⟨"RAIN", earliest, 0, 0, 100, 9223372036854775807, 9223372036854775807⟩
    config.fault? = none ∧ ∃ engine desk position, ofConfig config = .ok engine ∧
      (engine.afterAll commands).deskFor "RAIN" = .ok desk ∧ desk.trader.held = some position ∧
      position.entryTs = .ofTimestamp latest ∧ desk.Exact config record := by
  intro config commands record
  have hconfig : config.fault? = none := by decide +kernel
  have hrecord : (Command.message ("[\"quote\", \"RAIN\", -8334601228800000, 0, 0, 100," ++
      " 9223372036854775807, 9223372036854775807]")).record? = some record := by decide +kernel
  have hengine : ∃ engine, ofConfig config = .ok engine ∧
      ((engine.afterAll commands).deskFor "RAIN").toOption.any (fun desk =>
        desk.trader.held.map Position.entryTs = some (.ofTimestamp latest)) = true :=
    exists_ok_of_any (by decide +kernel)
  obtain ⟨engine, hengine, hfound⟩ := hengine
  obtain ⟨desk, hdesk, hheld⟩ := exists_ok_of_any hfound
  obtain ⟨position, hposition, hentry⟩ := Option.map_eq_some_iff.1 hheld
  obtain ⟨-, -, -, -, -, -, hexact⟩ := arithmetic_is_exact hconfig hengine commands
  obtain ⟨same, hsame, hexact⟩ := hexact _ record hrecord
  obtain rfl : desk = same := Except.ok.inj (hdesk.symm.trans hsame)
  exact ⟨hconfig, engine, desk, position, hengine, hdesk, hposition, hentry, hexact⟩

end Engine

end SignalDesk
