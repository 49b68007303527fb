import SignalDesk.Proofs.Trader

/-!
# Calls of a trader

A call that is not given up does one of three things: nothing, an entry with capital that the account
grants, or an exit that the account settles.
-/

namespace SignalDesk

inductive Call where
  | enter (composite : Composite) (quote : Option Quote)
  | exit (quote : Option Quote) (ts : Timestamp)

namespace Call

/-- The work that a call asks of a trader. An exit is never refused. -/
def plan : Call → Trader → Plan Trader (Except Refusal (Option PositionEvent))
  | enter composite quote => Trader.entryPlan composite quote
  | exit quote ts => fun trader => (Trader.exitPlan quote ts trader).andThen fun event => pure (.ok event)

/-- What becomes of a trader and of the account when a call is answered. -/
inductive Answered (trader : Trader) (account : Account) :
    Except Refusal (Option PositionEvent) → Trader → Account → Prop
  | idle {reply : Except Refusal (Option PositionEvent)}
      (hreply : ∀ event, reply ≠ .ok (some event)) : Answered trader account reply trader account
  | opened {position : Position} {account' : Account} (hfree : trader.held = none)
      (hsize : position.size = trader.tradeSize)
      (hreserve : (Account.reserve trader.tradeSize).Yields account (.ok ()) account') :
      Answered trader account (.ok (some (.opened position)))
        { trader with held := some position, entries := trader.entries + 1 } account'
  | closed {held position : Position} {reason : CloseReason} {pnl : Decimal}
      {halt : Option HaltReason} {account' : Account} (hheld : trader.held = some held)
      (hsize : position.size = held.size) (hpnl : position.realizedPnl = some pnl)
      (hsettle : (Account.settle held.size pnl).Yields account halt account') :
      Answered trader account (.ok (some (.closed position reason))) { trader with held := none }
        account'

private theorem answered_of_turn {trader trader' : Trader} {account account' : Account}
    {quote : Option Quote} {ts : Timestamp} {reply : Except Refusal (Option PositionEvent)}
    (h : Trader.Turn trader account quote ts (Trader.eventOf? reply) trader' account') :
    Answered trader account reply trader' account' := by
  cases reply with
  | error refusal =>
    cases h with
    | idle => exact .idle (by simp)
  | ok event =>
    cases h with
    | idle => exact .idle (by simp)
    | opened hfree hbook hprice hopen hreserve =>
      refine .opened hfree ?_ hreserve
      simp only [Position.openAt, bind_ok_iff, pure_ok_iff] at hopen
      obtain ⟨contracts, -, rfl⟩ := hopen
      rfl
    | closed hheld hprice hpnl hsettle => exact .closed hheld rfl rfl hsettle

end Call

theorem Call.answered {call : Call} {trader trader' : Trader} {account account' : Account}
    {reply : Except Refusal (Option PositionEvent)}
    (h : (call.plan trader).run.Yields (trader, account) reply (trader', account')) :
    Answered trader account reply trader' account' := by
  cases call with
  | enter composite quote => exact answered_of_turn (Trader.entryPlan_turn h)
  | exit quote ts =>
    obtain ⟨event, _, hexit, hpure⟩ := Plan.run_andThen_yields_iff.1 h
    obtain ⟨rfl, rfl⟩ := Act.yields_pure_iff.1 hpure
    exact answered_of_turn (Trader.exitPlan_turn hexit)

end SignalDesk
