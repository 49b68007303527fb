import SignalDesk.Engine.Desk
import SignalDesk.Engine.Roster

/-!
# The engine

The engine sends each record to the desk of its instrument, which it opens on the first valid record.
All desks share one account.
-/

namespace SignalDesk

structure Engine where
  config : Config
  composer : Composer
  account : Account
  /-- The desks, in the order in which their instruments appeared. -/
  desks : Roster Desk

namespace Engine

def ofConfig (config : Config) : Except Abort Engine := do
  return {
    config
    composer := .ofConfig config
    account := ← Account.ofSettings config.portfolio
    desks := [] }

def acceptance (record : Record) : List Notice :=
  match record.fault? with
  | none => [.count .recordsProcessed]
  | some fault =>
    [.logging .warn .engine "Dropping malformed record"
      [("instrument", .text record.instrument), ("kind", .text record.kind),
        ("error", .text fault.message)],
      .count .recordsDropped]

def desk? (engine : Engine) (instrument : String) : Option Desk := engine.desks.lookup instrument

def openDesk (instrument : String) : Act Engine Desk := do
  let engine ← Act.get
  match engine.desk? instrument with
  | some desk => return desk
  | none =>
    Act.notify [.logging .debug .engine "Tracking new instrument" [("instrument", .text instrument)]]
    let desk ← Act.lift (Desk.ofConfig engine.composer engine.config instrument)
    Act.set { engine with desks := engine.desks.put instrument desk }
    return desk

/-- Processes a record; an invalid one is dropped. -/
def process (record : Record) : Act Engine (Option Evaluation) := do
  Act.notify (acceptance record)
  if record.isValid then
    let desk ← openDesk record.instrument
    let engine ← Act.get
    let evaluation ← Act.focus (fun engine => (desk, engine.account))
      (fun engine (desk, account) =>
        { engine with account, desks := engine.desks.put record.instrument desk })
      (Desk.onRecord engine.composer record)
    return some evaluation
  else return none

def processMessage (message : String) : Act Engine (Option Evaluation) :=
  match Record.decode? message with
  | some record => process record
  | none => do
    Act.notify [.logging .warn .engine "Dropping undecodable record" [], .count .recordsDropped]
    return none

def clearHalt : Act Engine Unit :=
  Act.focus Engine.account (fun engine account => { engine with account }) Account.clearHalt

end Engine

end SignalDesk
