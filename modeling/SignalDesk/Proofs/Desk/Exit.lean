import SignalDesk.Proofs.Tape.Pruning
import SignalDesk.Proofs.Trader.Entry
import SignalDesk.Proofs.Trader.Exit

/-!
# Exits of a desk

Whatever records a desk has seen, it closes its position exactly when a condition to close holds, for
the first that does. So no position outlives a record that finds it overdue or out of its band.
-/

namespace SignalDesk

open Act

namespace Desk

theorem Sound.afterAll {config : Config} {desk : Desk} (hsound : desk.Sound config)
    (composer : Composer) {visits : List (Record × Account)}
    (haccepted : ∀ visit ∈ visits, visit.1.Accepted) : (desk.afterAll composer visits).Sound config := by
  induction visits generalizing desk with
  | nil => exact hsound
  | cons visit visits ih =>
    obtain ⟨hfirst, hrest⟩ := List.forall_mem_cons.1 haccepted
    exact ih (hsound.onRecord hfirst.valid composer visit.2) hrest

section decision

variable {settings : PositionSettings} {quote : Option Quote} {ts : Timestamp}
  {composite : Option Composite} {trader trader' : Trader} {account account' : Account}
  {events : List PositionEvent} {mark : Position → Option Int64}

/-- The exit checks of the trader keep to the conditions. -/
def ExitsChecked (settings : PositionSettings) (quote : Option Quote) (ts : Timestamp)
    (trader : Trader) (account : Account) (mark : Position → Option Int64) : Prop :=
  ∀ position event trader' account', trader.held = some position →
    (Trader.checkExit quote ts).Yields (trader, account) event (trader', account') →
    Trader.Checked settings position (mark position) ts event trader'.held

/-- An exit closes what was held. -/
theorem ExitsChecked.of_exit (hchecked : ExitsChecked settings quote ts trader account mark)
    {event : PositionEvent}
    (hexit : (Trader.checkExit quote ts).Yields (trader, account) (some event) (trader', account')) :
    trader.held.isSome ∧ trader'.held = none ∧ ∃ closed reason, event = .closed closed reason := by
  cases hbefore : trader.held with
  | none =>
    have hnothing := Trader.checkExit_yields hexit
    rw [hbefore] at hnothing
    cases hnothing
  | some before =>
    have hclosed := hchecked _ _ _ _ hbefore hexit
    generalize trader'.held = held at hclosed ⊢
    cases hclosed with
    | closed hfirst hpnl => exact ⟨rfl, rfl, _, _, rfl⟩

private theorem Decision.closes_iff
    (h : Decision quote ts composite trader account events trader' account')
    (hchecked : ExitsChecked settings quote ts trader account mark) {position : Position}
    (hheld : trader.held = some position) :
    (∃ closed reason, .closed closed reason ∈ events) ↔
      ∃ reason, position.Due settings (mark position) ts reason := by
  cases h with
  | exited hexit =>
    have hclosed := hchecked _ _ _ _ hheld hexit
    generalize trader'.held = held at hclosed
    cases hclosed with
    | closed hfirst hpnl => exact iff_of_true ⟨_, _, List.mem_singleton_self _⟩ ⟨_, hfirst.1⟩
  | ungated hexit hnone =>
    have hkept := hchecked _ _ _ _ hheld hexit
    rw [hheld] at hkept
    cases hkept with
    | kept hnone => exact iff_of_false (by simp) fun ⟨reason, hdue⟩ => hnone reason hdue
  | tried hexit hsome hentry =>
    have hkept := hchecked _ _ _ _ hheld hexit
    rw [hheld] at hkept
    cases hkept with
    | kept hnone =>
      refine iff_of_false ?_ fun ⟨reason, hdue⟩ => hnone reason hdue
      cases Trader.attempted_of_yields hentry <;> simp [Trader.eventOf?]

theorem Decision.holds (h : Decision quote ts composite trader account events trader' account')
    (hchecked : ExitsChecked settings quote ts trader account mark) {position : Position}
    (hheld : trader'.held = some position) :
    events = [.opened position] ∨ ∀ reason, ¬position.Due settings (mark position) ts reason := by
  have hkept (hexit : (Trader.checkExit quote ts).Yields (trader, account) none (trader, account))
      (hheld : trader.held = some position) :
      ∀ reason, ¬position.Due settings (mark position) ts reason := by
    have hkept := hchecked _ _ _ _ hheld hexit
    rw [hheld] at hkept
    cases hkept with
    | kept hnone => exact hnone
  cases h with
  | exited hexit =>
    cases (hchecked.of_exit hexit).2.1.symm.trans hheld
  | ungated hexit hnone => exact .inr (hkept hexit hheld)
  | tried hexit hsome hentry =>
    cases Trader.attempted_of_yields hentry with
    | uncalled hside => exact .inr (hkept hexit hheld)
    | unfit hside hentry => exact .inr (hkept hexit hheld)
    | denied hside hreserve => exact .inr (hkept hexit hheld)
    | opened hside hentry hreserve hopen =>
      cases hheld
      exact .inl rfl

end decision

variable {config : Config} {instrument : String} {desk : Desk}

/-- Whatever accepted records came before, an exit check that is not given up closes the position
exactly when a condition holds, for the first that does and at the mark, or at the entry price if there
is no quote. A position that is held after a record was opened by it or is within its band and its
time. -/
theorem exits_exactly_when_due (hvalid : config.fault? = none)
    (hdesk : Desk.ofConfig (.ofConfig config) config instrument = .ok desk)
    {visits : List (Record × Account)} (haccepted : ∀ visit ∈ visits, visit.1.Accepted)
    {record : Record} (hrecord : record.Accepted) (account : Account) :
    let composer := Composer.ofConfig config
    let now := desk.afterAll composer visits
    let quote := (now.tape.update record).latestQuote?
    let mark := fun position : Position => quote.map fun book => book.bidFor position.side
    (∀ position event trader' account', now.trader.held = some position →
      (Trader.checkExit quote record.ts).Yields (now.trader, account) event (trader', account') →
        (event.isSome ↔ ∃ reason, position.Due config.positions (mark position) record.ts reason) ∧
        (event = none → trader'.held = some position) ∧
        ∀ e ∈ event, ∃ closed reason, e = .closed closed reason ∧
          position.FirstDue config.positions (mark position) record.ts reason ∧
          closed.closeReason = some reason ∧
          closed.exitPrice = some ((mark position).getD position.entryPrice) ∧
          trader'.held = none) ∧
    ∀ evaluation desk' account',
      (onRecord composer record).Yields (now, account) evaluation (desk', account') →
        (∀ position, now.trader.held = some position →
          ((∃ closed reason, .closed closed reason ∈ evaluation.events) ↔
            ∃ reason, position.Due config.positions (mark position) record.ts reason)) ∧
        ∀ position, desk'.trader.held = some position →
          evaluation.events = [.opened position] ∨
            (∀ book ∈ desk'.tape.latestQuote?,
              -config.positions.stopLossCents.toInt <
                  (book.bidFor position.side).toInt - position.entryPrice.toInt ∧
                (book.bidFor position.side).toInt - position.entryPrice.toInt <
                  config.positions.takeProfitCents.toInt) ∧
            (Instant.ofTimestamp record.ts).toNanos - position.entryTs.toNanos ≤
              config.positions.timeStopMinutes.toNat * (60 * 1000000000) := by
  intro composer now quote mark
  have hsound : now.Sound config := (ofConfig_sound hdesk).1.afterAll composer haccepted
  have hquote : ∀ book ∈ quote, (Record.quote book).isValid = true :=
    Tape.latestQuote?_valid (Tape.update_valid hrecord.valid hsound.valid)
  have hchecked : ExitsChecked config.positions quote record.ts now.trader account mark :=
    fun _ _ _ _ => Trader.checkExit_checked hvalid hsound.trader hquote
  refine ⟨fun position event trader' account' hheld hexit => ?_,
    fun evaluation desk' account' h => ?_⟩
  · have hposition := Trader.checkExit_checked hvalid hsound.trader hquote hheld hexit
    generalize trader'.held = held at hposition ⊢
    cases hposition with
    | closed hfirst hpnl =>
      refine ⟨iff_of_true rfl ⟨_, hfirst.1⟩, by simp, ?_⟩
      rintro e ⟨⟩
      exact ⟨_, _, rfl, hfirst, rfl, rfl, rfl⟩
    | kept hnone =>
      exact ⟨iff_of_false (by simp) fun ⟨reason, hdue⟩ => hnone reason hdue, fun _ => rfl, by simp⟩
  · have hdecided := recordPlan_decided (onRecord_iff.1 h)
    have hquote' : desk'.tape.latestQuote? = quote := by rw [hdecided.tape]
    have hdecision := hdecided.decision
    rw [hquote'] at hdecision ⊢
    refine ⟨fun position hheld => hdecision.closes_iff hchecked hheld, fun position hheld => ?_⟩
    refine (hdecision.holds hchecked hheld).imp_right fun hnone => ?_
    obtain ⟨hband, htime⟩ := Position.forall_not_due_iff.1 hnone
    exact ⟨fun book hbook => hband _ (Option.mem_map_of_mem _ hbook), htime⟩

/-- A position that was bought at 50 is sold at 56, ahead of the stop that is overdue too. -/
theorem exits_exactly_when_due_of_profit :
    let config : Config := {
      activation := { dollarVolume := 0.0 }
      composer := { minSignals := 1 }
      signals := { tradeImbalance := { minTrades := 1 } } }
    let balance : Decimal := .ofInt64 500
    let account : Account :=
      .live ⟨balance, balance, balance, .zero, 0, .zero, false, balance, .ofInt64 1⟩
    let visits : List (Record × Account) :=
      [(.quote ⟨"RAIN", 0, 49, 48, 50, 0, 0⟩, account), (.trade ⟨"RAIN", 1000, .yes, 100, 50⟩, account)]
    let record : Record := .quote ⟨"RAIN", 3600000, 57, 56, 58, 0, 0⟩
    let composer := Composer.ofConfig config
    ∃ desk, Desk.ofConfig composer config "RAIN" = .ok desk ∧
      let now := desk.afterAll composer visits
      ∃ position, now.trader.held = some position ∧
        position.Due config.positions (some 56) record.ts .timeStop ∧
        ∃ evaluation desk' account',
          (onRecord composer record).Yields (now, account) evaluation (desk', account') ∧
            ∃ closed reason, .closed closed reason ∈ evaluation.events := by
  intro config balance account visits record composer
  have hvalid : config.fault? = none := by decide +kernel
  have haccepted : ∀ visit ∈ visits, visit.1.Accepted := by decide +kernel
  have hrecord : record.Accepted := by decide +kernel
  have hstate : ∃ desk, Desk.ofConfig composer config "RAIN" = .ok desk ∧
      ((∃ position ∈ (desk.afterAll composer visits).trader.held,
        position.Due config.positions (some 56) record.ts .timeStop ∧
          position.Due config.positions ((((desk.afterAll composer visits).tape.update
            record).latestQuote?).map fun book => book.bidFor position.side) record.ts .takeProfit) ∧
        (onRecord composer record (desk.afterAll composer visits, account)).outcome.toOption.any
          (fun evaluation => decide (evaluation.ts = record.ts)) = true) :=
    exists_ok_of_any (by decide +kernel)
  obtain ⟨desk, hdesk, ⟨position, hheld, htime, hprofit⟩, hout⟩ := hstate
  obtain ⟨evaluation, hevaluation, -⟩ := exists_ok_of_any hout
  have hyields := yields_of_outcome hevaluation
  obtain ⟨hcloses, -⟩ := (exits_exactly_when_due hvalid hdesk haccepted hrecord account).2 _ _ _ hyields
  exact ⟨desk, hdesk, position, hheld, htime, evaluation, _, _, hyields,
    (hcloses position hheld).2 ⟨.takeProfit, hprofit⟩⟩

end Desk

end SignalDesk
