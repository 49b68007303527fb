import SignalDesk.Proofs.Engine.Sound
import SignalDesk.Proofs.Floor.Halt

/-!
# Exit checks

A position is closed when its mark has moved far enough for a profit or a loss, or when it has been
held for too long. The conditions are tried in this order and the first that holds is the reason.
-/

namespace SignalDesk

namespace CloseReason

/-- The place of a reason in the order in which the conditions are tried. -/
def rank : CloseReason → Nat
  | takeProfit => 0
  | stopLoss => 1
  | timeStop => 2

end CloseReason

namespace Position

/-- The condition of a reason to close at `ts`, in cents and nanoseconds. Without a quote there is no
mark, and only the time counts. -/
def Due (settings : PositionSettings) (position : Position) (mark : Option Int64) (ts : Timestamp) :
    CloseReason → Prop
  | .takeProfit => ∃ price ∈ mark,
      settings.takeProfitCents.toInt ≤ price.toInt - position.entryPrice.toInt
  | .stopLoss => ∃ price ∈ mark,
      settings.stopLossCents.toInt ≤ position.entryPrice.toInt - price.toInt
  | .timeStop => settings.timeStopMinutes.toNat * (60 * 1000000000) <
      (Instant.ofTimestamp ts).toNanos - position.entryTs.toNanos

instance (settings : PositionSettings) (position : Position) (mark : Option Int64) (ts : Timestamp)
    (reason : CloseReason) : Decidable (position.Due settings mark ts reason) :=
  match reason with
  | .takeProfit => inferInstanceAs (Decidable (∃ price ∈ mark, _ ≤ price.toInt - _))
  | .stopLoss => inferInstanceAs (Decidable (∃ price ∈ mark, _ ≤ _ - price.toInt))
  | .timeStop => inferInstanceAs (Decidable (_ < _ - _))

/-- A condition that holds while none that is tried before it does. -/
def FirstDue (settings : PositionSettings) (position : Position) (mark : Option Int64)
    (ts : Timestamp) (reason : CloseReason) : Prop :=
  position.Due settings mark ts reason ∧
    ∀ earlier : CloseReason, earlier.rank < reason.rank → ¬position.Due settings mark ts earlier

variable {settings : PositionSettings} {position : Position} {mark : Option Int64} {ts : Timestamp}

/-- Nothing is due as long as the price stays within the band and the time within the limit. -/
theorem forall_not_due_iff : (∀ reason, ¬position.Due settings mark ts reason) ↔
    (∀ price ∈ mark, -settings.stopLossCents.toInt < price.toInt - position.entryPrice.toInt ∧
      price.toInt - position.entryPrice.toInt < settings.takeProfitCents.toInt) ∧
    (Instant.ofTimestamp ts).toNanos - position.entryTs.toNanos ≤
      settings.timeStopMinutes.toNat * (60 * 1000000000) := by
  constructor
  · intro hnone
    refine ⟨fun price hprice => ⟨?_, ?_⟩, Int.not_lt.1 (hnone .timeStop)⟩
    · have hloss : ¬settings.stopLossCents.toInt ≤ position.entryPrice.toInt - price.toInt :=
        fun hle => hnone .stopLoss ⟨price, hprice, hle⟩
      omega
    · exact Int.not_le.1 fun hle => hnone .takeProfit ⟨price, hprice, hle⟩
  · rintro ⟨hband, htime⟩ (_ | _ | _)
    · rintro ⟨price, hprice, hle⟩
      exact absurd hle (Int.not_le.2 (hband price hprice).2)
    · rintro ⟨price, hprice, hle⟩
      have := (hband price hprice).1
      omega
    · exact Int.not_lt.2 htime

private theorem priceExit?_cases (hentry : isCents position.entryPrice = true)
    (hmark : ∀ price ∈ mark, isCents price = true) (ts : Timestamp) :
    let reason? := mark.bind (settings.priceExit? position.entryPrice)
    (reason? = some .takeProfit ∧ position.Due settings mark ts .takeProfit) ∨
      (reason? = some .stopLoss ∧ ¬position.Due settings mark ts .takeProfit ∧
        position.Due settings mark ts .stopLoss) ∨
      reason? = none ∧ ¬position.Due settings mark ts .takeProfit ∧
        ¬position.Due settings mark ts .stopLoss := by
  cases mark with
  | none => simp [Due]
  | some price =>
    have hprice := hmark price rfl
    have hchange := toInt_sub_of_isCents hprice hentry
    have hopposite := toInt_neg_sub_of_isCents hprice hentry
    simp only [Option.bind_some, PositionSettings.priceExit?, Int64.le_iff_toInt_le, hchange,
      hopposite, Due, Option.mem_def, Option.some.injEq, exists_eq_left']
    split
    · rename_i hprofit
      exact .inl ⟨rfl, hprofit⟩
    · rename_i hprofit
      split
      · rename_i hloss
        exact .inr (.inl ⟨rfl, hprofit, hloss⟩)
      · rename_i hloss
        exact .inr (.inr ⟨rfl, hprofit, hloss⟩)

theorem isOverdue_eq
    (hlimit : settings.timeStop? = some (settings.timeStopMinutes.toNat * 60000 : Int))
    (position : Position) (mark : Option Int64) (ts : Timestamp) :
    ∃ overdue, settings.isOverdue position.entryTs ts = .ok overdue ∧
      (overdue = true ↔ position.Due settings mark ts .timeStop) := by
  refine ⟨_, by rw [PositionSettings.isOverdue, hlimit]; rfl, ?_⟩
  rw [decide_eq_true_iff, Due]
  have hnanos : (settings.timeStopMinutes.toNat * 60000 * 1000000 : Int) =
      settings.timeStopMinutes.toNat * (60 * 1000000000) := by omega
  rw [hnanos]

/-- An exit check finds the first reason that is due, if any is. -/
theorem exitReason?_cases
    (hlimit : settings.timeStop? = some (settings.timeStopMinutes.toNat * 60000 : Int))
    (hentry : isCents position.entryPrice = true) (hmark : ∀ price ∈ mark, isCents price = true)
    (ts : Timestamp) :
    (∃ reason, settings.exitReason? position mark ts = .ok (some reason) ∧
        position.FirstDue settings mark ts reason) ∨
      settings.exitReason? position mark ts = .ok none ∧
        ∀ reason, ¬position.Due settings mark ts reason := by
  obtain ⟨overdue, hoverdue, htime⟩ := isOverdue_eq hlimit position mark ts
  unfold PositionSettings.exitReason?
  obtain ⟨hreason, hprofit⟩ | ⟨hreason, hprofit, hloss⟩ | ⟨hreason, hprofit, hloss⟩ :=
    priceExit?_cases hentry hmark ts
  · rw [hreason]
    refine .inl ⟨_, rfl, hprofit, fun earlier hearlier => ?_⟩
    exact absurd hearlier (Nat.not_lt_zero _)
  · rw [hreason]
    refine .inl ⟨_, rfl, hloss, fun earlier hearlier => ?_⟩
    cases earlier with
    | takeProfit => exact hprofit
    | stopLoss => exact absurd hearlier (by decide)
    | timeStop => exact absurd hearlier (by decide)
  · rw [hreason, hoverdue]
    cases overdue with
    | true =>
      refine .inl ⟨_, rfl, htime.1 rfl, fun earlier hearlier => ?_⟩
      cases earlier with
      | takeProfit => exact hprofit
      | stopLoss => exact hloss
      | timeStop => exact absurd hearlier (by decide)
    | false =>
      refine .inr ⟨rfl, fun reason => ?_⟩
      cases reason with
      | takeProfit => exact hprofit
      | stopLoss => exact hloss
      | timeStop => exact fun hdue => by cases htime.2 hdue

end Position

namespace Trader

open Act

/-- What an exit check answers about a position and what it leaves of it. -/
inductive Checked (settings : PositionSettings) (position : Position) (mark : Option Int64)
    (ts : Timestamp) : Option PositionEvent → Option Position → Prop
  | closed {reason : CloseReason} {pnl : Decimal}
      (hfirst : position.FirstDue settings mark ts reason)
      (hpnl : position.pnlAt (mark.getD position.entryPrice) = .ok pnl) :
      Checked settings position mark ts
        (some (.closed (position.closedAt (mark.getD position.entryPrice) ts reason pnl) reason)) none
  | kept (hnone : ∀ reason, ¬position.Due settings mark ts reason) :
      Checked settings position mark ts none (some position)

theorem checkExit_checked {config : Config} (hvalid : config.fault? = none) {trader trader' : Trader}
    (hsound : trader.Sound config) {quote : Option Quote}
    (hquote : ∀ book ∈ quote, (Record.quote book).isValid = true) {ts : Timestamp}
    {account account' : Account} {event : Option PositionEvent} {position : Position}
    (hheld : trader.held = some position)
    (h : (checkExit quote ts).Yields (trader, account) event (trader', account')) :
    Checked config.positions position (quote.map fun book => book.bidFor position.side) ts event
      trader'.held := by
  have hexit := checkExit_yields h
  have hentry : isCents position.entryPrice = true := by
    obtain ⟨hlow, hhigh⟩ := (hsound.held position hheld).2.entryPrice
    exact isCents_iff.2 ⟨hlow.le, hhigh.le⟩
  have hmark : ∀ price ∈ quote.map fun book => book.bidFor position.side, isCents price = true := by
    intro price hprice
    obtain ⟨book, hbook, rfl⟩ := Option.map_eq_some_iff.1 hprice
    exact Quote.isCents_bidFor (hquote book hbook) position.side
  rw [hsound.settings, hheld, exitOf] at hexit
  obtain ⟨reason, hreason, hfirst⟩ | ⟨hreason, hnone⟩ :=
    Position.exitReason?_cases (Config.timeStop_of_valid hvalid) hentry hmark ts
  · obtain ⟨_, hsome, hclose⟩ := bind_ok_iff.1 hexit
    cases hreason.symm.trans hsome
    simp only [bind_ok_iff, pure_ok_iff, Prod.mk.injEq] at hclose
    obtain ⟨pnl, hpnl, rfl, hleft⟩ := hclose
    rw [← hleft]
    exact .closed hfirst hpnl
  · obtain ⟨_, hok, hkeep⟩ := bind_ok_iff.1 hexit
    cases hreason.symm.trans hok
    obtain ⟨rfl, hleft⟩ := Prod.mk.inj (pure_ok_iff.1 hkeep)
    rw [← hleft]
    exact .kept hnone

end Trader

end SignalDesk
