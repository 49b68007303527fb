import SignalDesk.Risk.Trader

/-!
# The desk of an instrument

A desk keeps the tape of one instrument and trades on it. For each record it updates the tape, checks
for an exit, evaluates the tape and, unless the record has just closed a position, checks for an
entry.
-/

namespace SignalDesk

structure Desk where
  tape : Tape
  trader : Trader

structure Evaluation where
  instrument : String
  ts : Timestamp
  /-- Absent below the liquidity gate. -/
  composite : Option Composite
  events : List PositionEvent

namespace Evaluation

def toData (evaluation : Evaluation) : Data :=
  .table [("instrument", .text evaluation.instrument), ("ts", .int evaluation.ts),
    ("composite", .ofOption (fun composite => .table composite.toMembers) evaluation.composite),
    ("events", .list (evaluation.events.map fun event => .table event.toMembers))]

end Evaluation

namespace Desk

def ofConfig (composer : Composer) (config : Config) (instrument : String) : Except Abort Desk := do
  let lookback ← composer.lookback
  let margin ← orAbort .spanOutOfRange (Span.ofSeconds? config.engine.retentionMarginSecs)
  let retention ← orAbort .spanOutOfRange (Span.add? lookback margin)
  return {
    tape := .empty instrument retention
    trader := .idle instrument config.positions config.portfolio.tradeSize }

def setTrader (desk : Desk) (trader : Trader) : Desk := { desk with trader }

def evaluate (composer : Composer) : Act Desk (Option Composite) := do
  let desk ← Act.get
  let composite ← Act.lift (composer.evaluate desk.tape)
  Act.notify (Composer.notices desk.tape.instrument composite)
  return composite

/-- Evaluates the tape after the exit check, when no entry is to follow. -/
def conclude (composer : Composer) (ts : Timestamp) (events : List PositionEvent) :
    Act Desk Evaluation := do
  let composite ← evaluate composer
  let desk ← Act.get
  return ⟨desk.tape.instrument, ts, composite, events⟩

def refusalNotice (instrument : String) : Refusal → Notice
  | .tradingHalted reason =>
    .logging .debug .instrument "Entry blocked by halt"
      [("instrument", .text instrument), ("reason", .text reason.toText)]
  | refusal =>
    .logging .debug .instrument "Entry refused"
      [("instrument", .text instrument), ("error", .text refusal.message)]

def report (ts : Timestamp) (composite : Composite) :
    Except Refusal (Option PositionEvent) → Act Desk Evaluation
  | .ok event => do
    let desk ← Act.get
    return ⟨desk.tape.instrument, ts, some composite, event.toList⟩
  | .error refusal => do
    let desk ← Act.get
    Act.notify [refusalNotice desk.tape.instrument refusal]
    return ⟨desk.tape.instrument, ts, some composite, []⟩

def entryPlan (ts : Timestamp) (composite : Option Composite) (desk : Desk) : Plan Desk Evaluation :=
  match composite with
  | none => .done ⟨.ok ⟨desk.tape.instrument, ts, none, []⟩, desk, []⟩
  | some composite =>
    let enter := Trader.entryPlan composite desk.tape.latestQuote?
    (Plan.focus Desk.trader setTrader enter desk).andThen (report ts composite)

/-- All that a desk does about a record. It asks the account at most once: an exit rules out an
entry. -/
def recordPlan (composer : Composer) (record : Record) (desk : Desk) : Plan Desk Evaluation :=
  let desk := { desk with tape := desk.tape.update record }
  let exit := Trader.exitPlan desk.tape.latestQuote? record.ts
  match Plan.focus Desk.trader setTrader exit desk with
  | .done ⟨.ok none, desk, notices⟩ =>
    Plan.after (do Act.notify notices; evaluate composer) (entryPlan record.ts) desk
  | plan => plan.andThen fun closed => conclude composer record.ts closed.toList

def onRecord (composer : Composer) (record : Record) : Act (Desk × Account) Evaluation := fun state =>
  (recordPlan composer record state.1).run state

end Desk

end SignalDesk
