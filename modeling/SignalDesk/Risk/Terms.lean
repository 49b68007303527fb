import SignalDesk.Data
import SignalDesk.Decimal.Text

/-!
# The vocabulary of risk

Why trading is halted, why an entry is refused and why a position is closed.
-/

namespace SignalDesk

inductive HaltReason where
  | maxDrawdownReached (drawdown : Decimal)
  | invalidStartingBalance
  | lockPoisoned
  deriving DecidableEq

namespace HaltReason

def toText : HaltReason → String
  | maxDrawdownReached drawdown => s!"MaxDrawdownReached({drawdown})"
  | invalidStartingBalance => "InvalidStartingBalance"
  | lockPoisoned => "LockPoisoned"

instance : ToString HaltReason := ⟨toText⟩

def toData : HaltReason → Data
  | maxDrawdownReached drawdown => .table [("MaxDrawdownReached", .text drawdown.toText)]
  | invalidStartingBalance => .text "InvalidStartingBalance"
  | lockPoisoned => .text "LockPoisoned"

end HaltReason

inductive Refusal where
  | tradingHalted (reason : HaltReason)
  | positionOpen (instrument : String)
  | insufficientCapital (required available : Decimal)
  | noQuote (instrument : String)
  | invalidEntryPrice (price : Int64)
  deriving DecidableEq

namespace Refusal

def message : Refusal → String
  | tradingHalted reason => s!"Trading halted: {reason}"
  | positionOpen instrument => s!"Position already open on {instrument}"
  | insufficientCapital required available =>
    s!"Insufficient capital: need {required}, available {available}"
  | noQuote instrument => s!"No quote for {instrument}"
  | invalidEntryPrice price => s!"Entry price {price}c outside (0, 100)"

end Refusal

inductive CloseReason where
  | takeProfit
  | stopLoss
  | timeStop
  deriving DecidableEq

namespace CloseReason

def toText : CloseReason → String
  | takeProfit => "take_profit"
  | stopLoss => "stop_loss"
  | timeStop => "time_stop"

def ofText? (text : String) : Option CloseReason :=
  [takeProfit, stopLoss, timeStop].find? fun reason => reason.toText == text

instance : ToString CloseReason := ⟨toText⟩

end CloseReason

end SignalDesk
