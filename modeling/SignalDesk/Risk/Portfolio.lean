import SignalDesk.Act
import SignalDesk.Config.Settings
import SignalDesk.Decimal.Float

/-!
# The portfolio

Capital is committed when a position opens and released, with its profit or loss, when it closes.
Losses beyond the drawdown limit halt trading until the halt is cleared. Losses are measured from
the highest balance since then, while the peak is kept for good.
-/

namespace SignalDesk

structure Portfolio where
  startingBalance : Decimal
  balance : Decimal
  /-- The highest balance ever. -/
  peakBalance : Decimal
  realizedPnl : Decimal
  openPositions : Nat
  /-- Capital held by open positions. -/
  committed : Decimal
  haltedForDrawdown : Bool
  /-- The highest balance since the last halt was cleared. -/
  haltBasis : Decimal
  /-- The loss, as a fraction of the starting balance, that halts trading. -/
  maxDrawdown : Decimal
  deriving DecidableEq

namespace Decimal

def add (a b : Decimal) : Except Abort Decimal := orAbort .decimalOverflow (a.add? b)

def sub (a b : Decimal) : Except Abort Decimal := orAbort .decimalOverflow (a.sub? b)

def mul (a b : Decimal) : Except Abort Decimal := orAbort .decimalOverflow (a.mul? b)

def div (a b : Decimal) : Except Abort Decimal := orAbort .decimalOverflow (a.div? b)

end Decimal

namespace Portfolio

def ofSettings (settings : PortfolioSettings) : Except Abort Portfolio := do
  return {
    startingBalance := settings.startingBalance
    balance := settings.startingBalance
    peakBalance := settings.startingBalance
    realizedPnl := .zero
    openPositions := 0
    committed := .zero
    haltedForDrawdown := false
    haltBasis := settings.startingBalance
    maxDrawdown := ← settings.drawdownHaltPercent.div .hundred }

/-- The loss from `high` to the balance, as a fraction of the starting balance. -/
def lossFrom (portfolio : Portfolio) (high : Decimal) : Except Abort Decimal := do
  if portfolio.startingBalance ≤ .zero then return .zero
  else (← high.sub portfolio.balance).div portfolio.startingBalance

def drawdown (portfolio : Portfolio) : Except Abort Decimal :=
  portfolio.lossFrom portfolio.peakBalance

def drawdownSinceClear (portfolio : Portfolio) : Except Abort Decimal :=
  portfolio.lossFrom portfolio.haltBasis

def available (portfolio : Portfolio) : Except Abort Decimal :=
  portfolio.balance.sub portfolio.committed

def haltReason? (portfolio : Portfolio) : Except Abort (Option HaltReason) := do
  if portfolio.startingBalance ≤ .zero then return some .invalidStartingBalance
  else if portfolio.haltedForDrawdown then return some (.maxDrawdownReached (← portfolio.drawdown))
  else return none

def publish : Act Portfolio Unit := do
  let portfolio ← Act.get
  Act.notify [.gauge (.balance portfolio.balance.toFloat)]
  let percent ← Act.lift (portfolio.drawdown >>= (·.mul .hundred))
  Act.notify [.gauge (.drawdown percent.toFloat), .gauge (.openPositions portfolio.openPositions)]
  let halt ← Act.lift portfolio.haltReason?
  Act.notify [.gauge (.halted halt.isSome)]

/-- Commits `size` to a new position, unless entries are halted or capital is short. -/
def reserve (size : Decimal) : Act Portfolio (Except Refusal Unit) := do
  let portfolio ← Act.get
  match ← Act.lift portfolio.haltReason? with
  | some reason => return .error (.tradingHalted reason)
  | none =>
    let available ← Act.lift portfolio.available
    if available < size then return .error (.insufficientCapital size available)
    else
      let committed ← Act.lift (portfolio.committed.add size)
      Act.set { portfolio with committed, openPositions := portfolio.openPositions + 1 }
      publish
      return .ok ()

/-- The portfolio after a position of `size` has closed with `pnl`, before the limit is checked. -/
def book (portfolio : Portfolio) (size pnl : Decimal) : Except Abort Portfolio := do
  let committed ← portfolio.committed.sub size
  let balance ← portfolio.balance.add pnl
  let realizedPnl ← portfolio.realizedPnl.add pnl
  return { portfolio with
    committed := committed.max .zero
    openPositions := portfolio.openPositions - 1
    balance, realizedPnl
    peakBalance := portfolio.peakBalance.max balance
    haltBasis := portfolio.haltBasis.max balance }

/-- Whether a loss that has not yet halted trading is beyond the limit. -/
def trips (portfolio : Portfolio) : Except Abort Bool := do
  if portfolio.haltedForDrawdown then return false
  else return portfolio.maxDrawdown < (← portfolio.drawdownSinceClear)

/-- Releases `size` and books `pnl`; answers why, if this halts trading. -/
def settle (size pnl : Decimal) : Act Portfolio (Option HaltReason) := do
  let portfolio ← Act.lift ((← Act.get).book size pnl)
  let tripped ← Act.lift portfolio.trips
  let portfolio :=
    { portfolio with haltedForDrawdown := portfolio.haltedForDrawdown || tripped }
  Act.set portfolio
  publish
  if tripped then Act.lift portfolio.haltReason? else return none

/-- Lets entries resume; the next halt measures losses from the current balance. -/
def clearHalt : Act Portfolio Unit := do
  Act.modify fun portfolio =>
    { portfolio with haltedForDrawdown := false, haltBasis := portfolio.balance }
  publish

def toMembers (portfolio : Portfolio) : List (String × Data) :=
  [("startingBalance", .text portfolio.startingBalance.toText),
    ("balance", .text portfolio.balance.toText),
    ("peakBalance", .text portfolio.peakBalance.toText),
    ("realizedPnl", .text portfolio.realizedPnl.toText),
    ("openPositions", .int portfolio.openPositions),
    ("committed", .text portfolio.committed.toText),
    ("haltedForDrawdown", .bool portfolio.haltedForDrawdown),
    ("haltBasis", .text portfolio.haltBasis.toText)]

end Portfolio

/-- The portfolio that all instruments share. An operation that is given up half way poisons it for
good, which counts as a halt. -/
inductive Account where
  | live (portfolio : Portfolio)
  | poisoned
  deriving DecidableEq

namespace Account

def ofSettings (settings : PortfolioSettings) : Except Abort Account :=
  (Portfolio.ofSettings settings).map .live

def portfolio? : Account → Option Portfolio
  | live portfolio => some portfolio
  | poisoned => none

def poisonNotice : Notice :=
  .logging .error .portfolio "Portfolio lock poisoned; treating as halted" []

/-- Acts on a live portfolio; a poisoned one gives the answer `otherwise`. -/
def within {α : Type} (otherwise : α) (act : Act Portfolio α) : Act Account α
  | live portfolio =>
    match act portfolio with
    | ⟨.ok a, portfolio, notices⟩ => ⟨.ok a, live portfolio, notices⟩
    | ⟨.error abort, _, notices⟩ => ⟨.error abort, poisoned, notices⟩
  | poisoned => ⟨.ok otherwise, poisoned, [poisonNotice]⟩

def reserve (size : Decimal) : Act Account (Except Refusal Unit) :=
  within (.error (.tradingHalted .lockPoisoned)) (Portfolio.reserve size)

def settle (size pnl : Decimal) : Act Account (Option HaltReason) :=
  within (some .lockPoisoned) (Portfolio.settle size pnl)

def clearHalt : Act Account Unit :=
  within () do
    Portfolio.clearHalt
    let portfolio ← Act.get
    Act.notify [.logging .info .portfolio "Drawdown halt cleared"
      [("balance", .text portfolio.balance.toText)]]

end Account

end SignalDesk
