import SignalDesk.Composite.Composer
import SignalDesk.Risk.Plan
import SignalDesk.Risk.Position

/-!
# The trader of an instrument

A trader holds at most one position. It opens one when a composite calls for it and the account has
the capital, and closes it on profit, on loss or after a time.
-/

namespace SignalDesk

structure Trader where
  instrument : String
  settings : PositionSettings
  tradeSize : Decimal
  held : Option Position
  /-- Entries made so far; a part of each position's id. -/
  entries : UInt64

structure Entry where
  side : Side
  price : Int64

def positionName (instrument : String) (ts : Timestamp) (entry : UInt64) : String :=
  s!"{instrument}:{ts}:{entry}"

def positionSpace : Uuid := ⟨0x5c1d0a7e93b44f1e8a62d0c471e9b38f⟩

/-- The id of the entry that a trader makes at `ts`; a replay assigns the same ids. -/
def positionId (instrument : String) (ts : Timestamp) (entry : UInt64) : Uuid :=
  Uuid.ofName positionSpace (positionName instrument ts entry)

namespace PositionSettings

def priceExit? (settings : PositionSettings) (entryPrice mark : Int64) : Option CloseReason :=
  let change := mark - entryPrice
  if settings.takeProfitCents ≤ change then some .takeProfit
  else if settings.stopLossCents ≤ -change then some .stopLoss
  else none

def isOverdue (settings : PositionSettings) (entryTs : Instant) (ts : Timestamp) :
    Except Abort Bool := do
  let limit ← orAbort .spanOutOfRange settings.timeStop?
  return limit * 1000000 < (Instant.ofTimestamp ts).toNanos - entryTs.toNanos

/-- Why a position has to be closed at `ts`, if it has to. Without a quote there is no mark. -/
def exitReason? (settings : PositionSettings) (position : Position) (mark : Option Int64)
    (ts : Timestamp) : Except Abort (Option CloseReason) := do
  match mark.bind (settings.priceExit? position.entryPrice) with
  | some reason => return some reason
  | none => return if ← settings.isOverdue position.entryTs ts then some .timeStop else none

end PositionSettings

namespace Trader

def idle (instrument : String) (settings : PositionSettings) (tradeSize : Decimal) : Trader :=
  ⟨instrument, settings, tradeSize, none, 0⟩

def closingNotices (position : Position) (price : Int64) (pnl : Decimal) (reason : CloseReason) :
    Option HaltReason → List Notice
  | halt =>
    (halt.toList.map fun halt =>
      .logging .warn .position "Trading halted, new entries blocked"
        [("instrument", .text position.instrument), ("reason", .text halt.toText)]) ++
    [.count (.positionClosed reason),
      .logging .info .position "Position closed"
        [("instrument", .text position.instrument), ("side", .text position.side.toText),
          ("entry", .int position.entryPrice.toInt), ("exit", .int price.toInt),
          ("pnl", .text pnl.toText), ("reason", .text reason.toText)]]

/-- Closes `position` and settles it; the trader lets go of it first. -/
def closePlan (trader : Trader) (position : Position) (price : Int64) (ts : Timestamp)
    (reason : CloseReason) : Plan Trader (Option PositionEvent) :=
  let trader := { trader with held := none }
  match position.pnlAt price with
  | .error abort => .done ⟨.error abort, trader, []⟩
  | .ok pnl =>
    let position := position.closedAt price ts reason pnl
    .ask (.settle position.size pnl) trader [] fun halt trader =>
      ⟨.ok (some (.closed position reason)), trader, closingNotices position price pnl reason halt⟩

/-- Closes the position if it has to be closed at `ts`. The mark is the best bid of the held side;
without a quote the position leaves at its entry price. -/
def exitPlan (quote : Option Quote) (ts : Timestamp) (trader : Trader) :
    Plan Trader (Option PositionEvent) :=
  match trader.held with
  | none => .done ⟨.ok none, trader, []⟩
  | some position =>
    let mark := quote.map fun quote => quote.bidFor position.side
    match trader.settings.exitReason? position mark ts with
    | .error abort => .done ⟨.error abort, trader, []⟩
    | .ok none => .done ⟨.ok none, trader, []⟩
    | .ok (some reason) => trader.closePlan position (mark.getD position.entryPrice) ts reason

def calledSide? (settings : PositionSettings) (composite : Composite) : Option Side :=
  if !composite.actionable || composite.score.abs < settings.entryThreshold then none
  else composite.direction

/-- The entry on a side, or why it cannot be made. -/
def entryOn (trader : Trader) (side : Side) (quote : Option Quote) : Except Refusal Entry :=
  if trader.held.isSome then .error (.positionOpen trader.instrument)
  else
    match quote with
    | none => .error (.noQuote trader.instrument)
    | some quote =>
      let price := quote.askFor side
      if price ≤ 0 || 100 ≤ price then .error (.invalidEntryPrice price) else .ok ⟨side, price⟩

def openingNotices (composite : Composite) (position : Position) : List Notice :=
  [.count .positionOpened,
    .logging .info .position "Position opened"
      [("instrument", .text position.instrument), ("side", .text position.side.toText),
        ("entry", .int position.entryPrice.toInt), ("score", .float composite.score),
        ("confidence", .float composite.confidence)]]

def enter (composite : Composite) (entry : Entry) :
    Act Trader (Except Refusal (Option PositionEvent)) := fun trader =>
  let id := positionId trader.instrument composite.ts trader.entries
  let counted := { trader with entries := trader.entries + 1 }
  match Position.openAt id trader.instrument entry.side entry.price composite.ts trader.tradeSize with
  | .error abort => ⟨.error abort, counted, []⟩
  | .ok position =>
    ⟨.ok (.ok (some (.opened position))), { counted with held := some position },
      openingNotices composite position⟩

def entryPlan (composite : Composite) (quote : Option Quote) (trader : Trader) :
    Plan Trader (Except Refusal (Option PositionEvent)) :=
  match calledSide? trader.settings composite with
  | none => .done ⟨.ok (.ok none), trader, []⟩
  | some side =>
    match trader.entryOn side quote with
    | .error refusal => .done ⟨.ok (.error refusal), trader, []⟩
    | .ok entry =>
      .ask (.reserve trader.tradeSize) trader [] fun
        | .error refusal => fun trader => ⟨.ok (.error refusal), trader, []⟩
        | .ok () => enter composite entry

/-- Closes the position if it has to be closed, in one go. -/
def checkExit (quote : Option Quote) (ts : Timestamp) :
    Act (Trader × Account) (Option PositionEvent) := fun state =>
  (exitPlan quote ts state.1).run state

/-- Opens a position if a composite calls for one, in one go. -/
def tryEnter (composite : Composite) (quote : Option Quote) :
    Act (Trader × Account) (Except Refusal (Option PositionEvent)) := fun state =>
  (entryPlan composite quote state.1).run state

end Trader

end SignalDesk
