import SignalDesk.Uuid
import SignalDesk.Time.Instant
import SignalDesk.Json.Reader
import SignalDesk.Json.Writer
import SignalDesk.Market.Wire
import SignalDesk.Risk.Portfolio

/-!
# Positions

A position buys contracts of one side with a fixed amount of capital and is later closed at a price.
Positions travel as JSON.
-/

namespace SignalDesk

inductive PositionStatus where
  | opened
  | closed
  deriving DecidableEq

namespace PositionStatus

def toText : PositionStatus → String
  | opened => "open"
  | closed => "closed"

def ofText? (text : String) : Option PositionStatus :=
  [opened, closed].find? fun status => status.toText == text

end PositionStatus

structure Position where
  id : Uuid
  instrument : String
  side : Side
  entryPrice : Int64
  entryTs : Instant
  /-- The capital committed, in dollars. -/
  size : Decimal
  contracts : Decimal
  status : PositionStatus
  closeReason : Option CloseReason
  exitPrice : Option Int64
  exitTs : Option Instant
  realizedPnl : Option Decimal
  deriving DecidableEq

namespace Position

def contractsFor (size : Decimal) (entryPrice : Int64) : Except Abort Decimal := do
  (← size.mul .hundred).div (.ofInt64 entryPrice)

def openAt (id : Uuid) (instrument : String) (side : Side) (entryPrice : Int64) (ts : Timestamp)
    (size : Decimal) : Except Abort Position := do
  return {
    id, instrument, side, entryPrice, size
    entryTs := .ofTimestamp ts
    contracts := ← contractsFor size entryPrice
    status := .opened
    closeReason := none
    exitPrice := none
    exitTs := none
    realizedPnl := none }

def pnlAt (position : Position) (price : Int64) : Except Abort Decimal := do
  (← position.contracts.mul (.ofInt64 (price - position.entryPrice))).div .hundred

def isOpen (position : Position) : Bool := position.status == .opened

/-- The position after a close that booked `pnl`. -/
def closedAt (position : Position) (price : Int64) (ts : Timestamp) (reason : CloseReason)
    (pnl : Decimal) : Position :=
  { position with
    status := .closed
    closeReason := some reason
    exitPrice := some price
    exitTs := some (.ofTimestamp ts)
    realizedPnl := some pnl }

def toData (position : Position) : Data :=
  .table [("id", .text position.id.toText), ("instrument", .text position.instrument),
    ("side", .text position.side.toText), ("entryPrice", .int position.entryPrice.toInt),
    ("entryTs", .text position.entryTs.toText), ("size", .text position.size.toText),
    ("contracts", .text position.contracts.toText), ("status", .text position.status.toText),
    ("closeReason", .ofOption (fun reason => .text reason.toText) position.closeReason),
    ("exitPrice", .ofOption (fun price => .int price.toInt) position.exitPrice),
    ("exitTs", .ofOption (fun ts => .text ts.toText) position.exitTs),
    ("realizedPnl", .ofOption (fun pnl => .text pnl.toText) position.realizedPnl)]

def fieldNames : List String :=
  ["id", "instrument", "side", "entryPrice", "entryTs", "size", "contracts", "status",
    "closeReason", "exitPrice", "exitTs", "realizedPnl"]

/-- A name, or a table that holds null under the name. -/
def tag? : Data → Option String
  | .text name => some name
  | .table [(name, .null)] => some name
  | _ => none

/-- A field that may be null or absent. -/
def optional? {α : Type} (read : Data → Option α) : Option Data → Option (Option α)
  | none => some none
  | some .null => some none
  | some data => (read data).map some

def instant? (data : Data) : Option Instant := data.string?.bind Instant.ofText?

end Position

/-- An amount: an integer, the shortest text of a float, or a text. -/
def Decimal.ofData? : Data → Option Decimal
  | .int n => Decimal.ofParts? n 0
  | .float x => Decimal.ofText? (FloatText.plain x)
  | .text s => Decimal.ofText? s
  | _ => none

namespace Position

def ofMembers? (members : List (String × Data)) : Option Position := do
  let field (name : String) := Data.find? name members
  return {
    id := ← (← (← field "id").string?) |> Uuid.ofText?
    instrument := ← (← field "instrument").string?
    side := ← (← tag? (← field "side")) |> Side.ofText?
    entryPrice := ← (← field "entryPrice").int64?
    entryTs := ← instant? (← field "entryTs")
    size := ← Decimal.ofData? (← field "size")
    contracts := ← Decimal.ofData? (← field "contracts")
    status := ← (← tag? (← field "status")) |> PositionStatus.ofText?
    closeReason := ← optional? (fun data => (tag? data).bind CloseReason.ofText?) (field "closeReason")
    exitPrice := ← optional? Data.int64? (field "exitPrice")
    exitTs := ← optional? instant? (field "exitTs")
    realizedPnl := ← optional? Decimal.ofData? (field "realizedPnl") }

/-- A position from a table of its fields, or from a list of all of them in order. -/
def ofData? (data : Data) : Option Position := do
  let members ← data.named? fieldNames
  if Data.repeatsKey fieldNames members then none
  match data with
  | .list items => if items.length = fieldNames.length then ofMembers? members else none
  | _ => ofMembers? members

def decode? (text : String) : Option Position :=
  (Json.read? text Json.Written.quick).bind ofData?

def encode (position : Position) : String := Json.write position.toData

end Position

inductive PositionEvent where
  | opened (position : Position)
  | closed (position : Position) (reason : CloseReason)
  deriving DecidableEq

namespace PositionEvent

def position : PositionEvent → Position
  | opened position => position
  | closed position _ => position

def toMembers : PositionEvent → List (String × Data)
  | opened position => [("event", .text "opened"), ("position", position.toData)]
  | closed position reason =>
    [("event", .text "closed"), ("position", position.toData), ("reason", .text reason.toText)]

end PositionEvent

end SignalDesk
