import SignalDesk.Proofs.Bounds
import SignalDesk.Proofs.Engine.Attempts
import SignalDesk.Proofs.Position.Profit
import SignalDesk.Proofs.Trader.Entry

/-!
# What exits pay

A close for profit books no loss and a close for loss no profit, whatever the quotes are and whichever
commands an engine has worked on or given up before.
-/

namespace SignalDesk

/-- A close pays as its reason says. -/
def PositionEvent.PaysByReason : PositionEvent → Prop
  | .closed position .takeProfit => ∃ pnl ∈ position.realizedPnl, .zero ≤ pnl
  | .closed position .stopLoss => ∃ pnl ∈ position.realizedPnl, pnl ≤ .zero
  | .closed _ .timeStop => True
  | .opened _ => True

namespace PositionSettings

variable {settings : PositionSettings} {entryPrice price : Int64}

private theorem priceExit?_takeProfit (hprofit : 0 < settings.takeProfitCents.toInt)
    (h : settings.priceExit? entryPrice price = some .takeProfit) : 0 < (price - entryPrice).toInt := by
  unfold priceExit? at h
  simp only at h
  split at h
  · rename_i hle
    exact hprofit.trans_le (Int64.le_iff_toInt_le.1 hle)
  · split at h <;> cases h

private theorem priceExit?_stopLoss (hloss : 0 < settings.stopLossCents.toInt)
    (h : settings.priceExit? entryPrice price = some .stopLoss) : (price - entryPrice).toInt < 0 := by
  unfold priceExit? at h
  simp only at h
  split at h
  · cases h
  · split at h
    · rename_i hle
      have hfall := hloss.trans_le (Int64.le_iff_toInt_le.1 hle)
      by_contra hrise
      have hhigh := (price - entryPrice).toInt_lt
      rw [Int64.toInt_neg, Int.bmod_eq_of_le (by omega) (by omega)] at hfall
      omega
    · cases h

private theorem priceExit?_ne_timeStop : settings.priceExit? entryPrice price ≠ some .timeStop := by
  unfold priceExit?
  simp only
  split
  · simp
  · split <;> simp

end PositionSettings

namespace Trader

open Act

variable {settings : PositionSettings} {quote : Option Quote} {ts : Timestamp}

private theorem exitOf_pays (hprofit : 0 < settings.takeProfitCents.toInt)
    (hloss : 0 < settings.stopLossCents.toInt) {held held' : Option Position}
    (hcontracts : ∀ position ∈ held, .zero ≤ position.contracts) {event : PositionEvent}
    (h : exitOf settings held quote ts = .ok (some event, held')) : event.PaysByReason := by
  cases held with
  | none => cases h
  | some position =>
    have hcontracts := (Decimal.zero_le_iff _).1 (hcontracts position rfl)
    obtain ⟨reason?, hreason, hclose⟩ := bind_ok_iff.1 h
    cases reason? with
    | none => cases hclose
    | some reason =>
      obtain ⟨pnl, hpnl, hevent⟩ := bind_ok_iff.1 hclose
      cases hevent
      unfold PositionSettings.exitReason? at hreason
      split at hreason
      · -- the price has closed the position, so that there is a mark
        rename_i other hprice
        cases hreason
        obtain ⟨price, hmark, hexit⟩ := Option.bind_eq_some_iff.1 hprice
        rw [hmark, Option.getD_some] at hpnl
        cases reason with
        | takeProfit =>
          have hrise := PositionSettings.priceExit?_takeProfit hprofit hexit
          have hgain := Position.pnlAt_nonneg hcontracts hrise.le hpnl
          exact ⟨pnl, rfl, (Decimal.zero_le_iff pnl).2 hgain⟩
        | stopLoss =>
          have hfall := PositionSettings.priceExit?_stopLoss hloss hexit
          refine ⟨pnl, rfl, (Decimal.le_iff_toRat pnl .zero).2 ?_⟩
          rw [Decimal.toRat_zero]
          exact Position.pnlAt_nonpos hcontracts hfall.le hpnl
        | timeStop => exact absurd hexit PositionSettings.priceExit?_ne_timeStop
      · obtain ⟨overdue, -, hreason⟩ := bind_ok_iff.1 hreason
        cases overdue <;> cases hreason
        trivial

/-- Every close of a sound trader pays as its reason says, at any quote and time. -/
theorem Sound.checkExit_pays {config : Config} (hvalid : config.fault? = none) {trader : Trader}
    (hsound : trader.Sound config) {account : Account} {event : PositionEvent}
    {state' : Trader × Account}
    (h : (checkExit quote ts).Yields (trader, account) (some event) state') : event.PaysByReason := by
  have hpositions := (Config.pass_iff.1 (Config.fault?_eq_none_iff.1 hvalid)).positions
  have hexit := checkExit_yields h
  rw [hsound.settings] at hexit
  refine exitOf_pays hpositions.takeProfitCents hpositions.stopLossCents (fun position hheld => ?_) hexit
  obtain ⟨hsize, hopened⟩ := hsound.held position hheld
  rw [Decimal.zero_le_iff]
  apply hopened.contracts_nonneg
  rw [hsize]
  exact (Config.tradeSize_pos hvalid).le

private theorem Attempted.pays {composite : Composite} {trader trader' : Trader}
    {account account' : Account} {reply : Except Refusal (Option PositionEvent)}
    (h : Attempted composite quote trader account (.ok reply) trader' account') :
    ∀ event ∈ eventOf? reply, event.PaysByReason := by
  cases h with
  | opened =>
    intro event hevent
    cases hevent
    trivial
  | _ => exact fun event hevent => by cases hevent

end Trader

namespace Desk

open Act

private theorem Decision.pays {config : Config} (hvalid : config.fault? = none) {quote : Option Quote}
    {ts : Timestamp} {composite : Option Composite} {trader trader' : Trader}
    {account account' : Account} {events : List PositionEvent}
    (h : Decision quote ts composite trader account events trader' account')
    (hsound : trader.Sound config) : ∀ event ∈ events, event.PaysByReason := by
  cases h with
  | exited hexit => exact List.forall_mem_singleton.2 (hsound.checkExit_pays hvalid hexit)
  | ungated hexit hnone => exact fun _ hmem => absurd hmem List.not_mem_nil
  | tried hexit hsome hentry =>
    intro event hmem
    exact (Trader.attempted_of_yields hentry).pays event (Option.mem_toList.1 hmem)

end Desk

namespace Engine

open Act

private theorem Tried.pays {config : Config} (hvalid : config.fault? = none) {engine engine' : Engine}
    (hsound : engine.Sound config) {command : Command} {evaluation? : Option Evaluation}
    (h : Tried engine command evaluation? engine') :
    ∀ evaluation ∈ evaluation?, ∀ event ∈ evaluation.events, event.PaysByReason := by
  cases h with
  | kept => exact nofun
  | cleared => exact nofun
  | worked hrecord hdesk hattempt =>
    intro evaluation hmem
    exact (Desk.decided_of_mem hattempt hmem).decision.pays hvalid (hsound.deskFor hdesk).trader

/-- The profit of a position follows the price at which it is closed. So under a valid configuration
every close for profit gains or breaks even and every close for loss loses or breaks even: those that
an engine reports, and those that any of its desks would make at whatever quote, whichever commands the
engine has worked on or given up. -/
theorem profit_follows_price {position : Position} (hcontracts : .zero ≤ position.contracts)
    {config : Config} (hvalid : config.fault? = none) {engine : Engine}
    (hengine : ofConfig config = .ok engine) (commands : List Command) :
    position.ProfitFollowsPrice ∧
      (∀ evaluation ∈ engine.reportsOf commands, ∀ event ∈ evaluation.events, event.PaysByReason) ∧
      ∀ instrument desk, (engine.afterAll commands).deskFor instrument = .ok desk →
        ∀ quote ts account event state',
          (Trader.checkExit quote ts).Yields (desk.trader, account) (some event) state' →
            event.PaysByReason := by
  have hsound := ofConfig_sound hengine
  refine ⟨Position.profitFollowsPrice hcontracts, ?_, fun instrument desk hdesk _ _ _ _ _ hexit => ?_⟩
  · exact forall_mem_reportsOf commands (fun engine command hsound =>
      (handle_tried command engine).pays hvalid hsound) hsound
  · exact ((hsound.afterAll commands).deskFor hdesk).trader.checkExit_pays hvalid hexit

theorem profit_follows_price_of_fall :
    let position : Position := {
      id := positionSpace, instrument := "RAIN", side := .yes, entryPrice := 51
      entryTs := .ofTimestamp 1000, size := .hundred
      contracts := ⟨false, 19607843137254901960784313725, 26, by decide, by decide⟩
      status := .opened, closeReason := none, exitPrice := none, exitTs := none, realizedPnl := none }
    let config : Config := {
      activation := { dollarVolume := 0.0 }
      composer := { minSignals := 1 }
      signals := { tradeImbalance := { minTrades := 1 } } }
    let commands : List Command := [
      .message "[\"quote\", \"RAIN\", 0, 50, 49, 51, 0, 0]",
      .message "[\"trade\", \"RAIN\", 1000, \"yes\", 100, 51]",
      .message "[\"quote\", \"RAIN\", 2000, 40, 39, 41, 0, 0]"]
    position.ProfitFollowsPrice ∧ ∃ engine, ofConfig config = .ok engine ∧
      ∃ evaluation ∈ engine.reportsOf commands, ∃ closed,
        .closed closed .stopLoss ∈ evaluation.events ∧ ∃ pnl ∈ closed.realizedPnl, pnl ≤ .zero := by
  intro position config commands
  have hcontracts : .zero ≤ position.contracts := by decide +kernel
  have hvalid : config.fault? = none := by decide +kernel
  have hengine : ∃ engine, ofConfig config = .ok engine ∧
      (engine.reportsOf commands).any (fun evaluation => evaluation.events.any fun event =>
        event = .closed event.position .stopLoss) = true :=
    exists_ok_of_any (by decide +kernel)
  obtain ⟨engine, hengine, hclosed⟩ := hengine
  obtain ⟨evaluation, hevaluation, hclosed⟩ := List.any_eq_true.1 hclosed
  obtain ⟨event, hevent, hclosed⟩ := List.any_eq_true.1 hclosed
  rw [of_decide_eq_true hclosed] at hevent
  obtain ⟨hfollows, hpays, -⟩ := profit_follows_price hcontracts hvalid hengine commands
  exact ⟨hfollows, engine, hengine, evaluation, hevaluation, _, hevent,
    hpays evaluation hevaluation _ hevent⟩

end Engine

end SignalDesk
