import SignalDesk.Data
import SignalDesk.Json.Reader
import SignalDesk.Json.Writer
import SignalDesk.Market.Record

/-!
# Records on the wire

A record is one JSON message: a table with a `kind`, or a list of the kind and the fields in order.
Unknown fields are ignored and known ones may not repeat. Records are written as tables.
-/

namespace SignalDesk

inductive RecordError where
  | malformed
  | invalid (fault : RecordFault)
  deriving DecidableEq

def maxMessageDepth : Nat := 127

namespace Side

/-- A side by name, or as a table that holds nothing under the name. -/
def ofData? : Data → Option Side
  | .text name => ofText? name
  | .table [(name, .null)] => ofText? name
  | .table [(name, .table [])] => ofText? name
  | _ => none

end Side

namespace Timestamp

def ofData? (data : Data) : Option Timestamp := do
  let n ← data.int?
  if Timestamp.inRange n then return n else none

end Timestamp

namespace Trade

def fieldNames : List String := ["instrument", "ts", "side", "count", "price"]

def ofMembers? (members : List (String × Data)) : Option Trade := do
  return {
    instrument := ← (← Data.find? "instrument" members).string?
    ts := ← Timestamp.ofData? (← Data.find? "ts" members)
    side := ← Side.ofData? (← Data.find? "side" members)
    count := ← (← Data.find? "count" members).uint64?
    price := ← (← Data.find? "price" members).int64? }

def toMembers (trade : Trade) : List (String × Data) :=
  [("instrument", .text trade.instrument), ("ts", .int trade.ts), ("side", .text trade.side.toText),
    ("count", .int trade.count.toNat), ("price", .int trade.price.toInt)]

end Trade

namespace Quote

def fieldNames : List String :=
  ["instrument", "ts", "price", "yes_bid", "yes_ask", "volume", "dollar_volume"]

/-- A cumulative volume, zero when it is not given. -/
def volume? (key : String) (members : List (String × Data)) : Option Int64 :=
  match Data.find? key members with
  | some data => data.int64?
  | none => some 0

def ofMembers? (members : List (String × Data)) : Option Quote := do
  return {
    instrument := ← (← Data.find? "instrument" members).string?
    ts := ← Timestamp.ofData? (← Data.find? "ts" members)
    price := ← (← Data.find? "price" members).int64?
    yesBid := ← (← Data.find? "yes_bid" members).int64?
    yesAsk := ← (← Data.find? "yes_ask" members).int64?
    volume := ← volume? "volume" members
    dollarVolume := ← volume? "dollar_volume" members }

def toMembers (quote : Quote) : List (String × Data) :=
  [("instrument", .text quote.instrument), ("ts", .int quote.ts), ("price", .int quote.price.toInt),
    ("yes_bid", .int quote.yesBid.toInt), ("yes_ask", .int quote.yesAsk.toInt),
    ("volume", .int quote.volume.toInt), ("dollar_volume", .int quote.dollarVolume.toInt)]

end Quote

namespace Record

def ofFields? (kind : String) (data : Data) : Option Record := do
  let isTrade := kind == "trade"
  if !(isTrade || kind == "quote" || kind == "ticker") then none
  let names := if isTrade then Trade.fieldNames else Quote.fieldNames
  let members ← data.named? names
  if Data.repeatsKey names members then none
  if isTrade then return .trade (← Trade.ofMembers? members)
  else return .quote (← Quote.ofMembers? members)

def ofData? (data : Data) : Option Record :=
  if !data.fits maxMessageDepth then none
  else
    match data with
    | .table members =>
      match Data.valuesOf "kind" members with
      | [.text kind] => ofFields? kind data
      | _ => none
    | .list (.text kind :: fields) =>
      if (if kind == "trade" then Trade.fieldNames else Quote.fieldNames).length < fields.length then
        none
      else ofFields? kind (.list fields)
    | _ => none

def decode? (message : String) : Option Record :=
  (Json.read? message Json.Written.quick).bind ofData?

def parse (message : String) : Except RecordError Record :=
  match decode? message with
  | none => .error .malformed
  | some record =>
    match record.fault? with
    | some fault => .error (.invalid fault)
    | none => .ok record

def toData : Record → Data
  | .trade t => .table (("kind", .text "trade") :: t.toMembers)
  | .quote q => .table (("kind", .text "quote") :: q.toMembers)

def encode (record : Record) : String := Json.write record.toData

end Record

end SignalDesk
