import SignalDesk.Market.Record

/-!
# The tape of an instrument

The tape holds the recent records of one instrument in the order of their arrival. Every window
ends at the newest record, whatever the wall clock says, so a replay gives the answers that the
live stream gave.
-/

namespace SignalDesk

structure Tape where
  instrument : String
  retention : Span
  /-- The records, oldest first. -/
  records : List Record
  /-- The time of the record that arrived last. -/
  latest : Option Timestamp

structure SpreadPoint where
  ts : Timestamp
  spread : Float
  midpoint : Float

structure SideTotals where
  yes : Contracts
  no : Contracts
  deriving DecidableEq

namespace SideTotals

def add (totals : SideTotals) (trade : Trade) : SideTotals :=
  match trade.side with
  | .yes => { totals with yes := Contracts.add totals.yes trade.count }
  | .no => { totals with no := Contracts.add totals.no trade.count }

def ofTrades (trades : List Trade) : SideTotals := trades.foldl add ⟨0, 0⟩

def dominant (totals : SideTotals) : Side := Side.dominant totals.yes totals.no

def larger (totals : SideTotals) : Contracts :=
  if totals.yes < totals.no then totals.no else totals.yes

def total (totals : SideTotals) : Contracts := Contracts.add totals.yes totals.no

end SideTotals

structure TradeFlow where
  trades : Nat
  totals : SideTotals

namespace Tape

def empty (instrument : String) (retention : Span) : Tape := ⟨instrument, retention, [], none⟩

/-- Appends a record and drops the oldest ones that have left the retention. -/
def update (tape : Tape) (record : Record) : Tape :=
  let records := tape.records ++ [record]
  let kept :=
    match record.ts.before? tape.retention with
    | some cutoff => records.dropWhile fun r => r.ts < cutoff
    | none => records
  { tape with records := kept, latest := some record.ts }

def latestQuote? (tape : Tape) : Option Quote := tape.records.reverse.findSome? Record.quote?

def windowStart? (tape : Tape) (window : Span) : Option Timestamp :=
  tape.latest.map fun latest => (latest.before? window).getD earliest

def within (tape : Tape) (window : Span) : List Record :=
  match tape.windowStart? window with
  | some start => tape.records.filter fun r => start ≤ r.ts
  | none => []

def tradesWithin (tape : Tape) (window : Span) : List Trade :=
  (tape.within window).filterMap Record.trade?

def quotesWithin (tape : Tape) (window : Span) : List Quote :=
  (tape.within window).filterMap Record.quote?

def lastTradeBefore? (tape : Tape) (window : Span) : Option Trade :=
  match tape.windowStart? window with
  | some start => (tape.records.reverse.dropWhile fun r => start ≤ r.ts).findSome? Record.trade?
  | none => none

def spreadHistory (tape : Tape) (window : Span) : List SpreadPoint :=
  (tape.quotesWithin window).map fun quote =>
    ⟨quote.ts, Float.ofInt quote.spread.toInt, quote.midpoint⟩

/-- The first and the last of at least two quotes. -/
def quoteEnds? (tape : Tape) (window : Span) : Option (Quote × Quote) :=
  match tape.quotesWithin window with
  | [] => none
  | first :: rest => rest.getLast?.map fun last => (first, last)

/-- The growth of the dollar volume from one quote to another; a counter that was reset has not
grown. -/
def volumeBetween (first last : Quote) : Float :=
  let growth := last.dollarVolume - first.dollarVolume
  Float.ofInt (if growth < 0 then 0 else growth).toInt

def minutesBetween (first last : Quote) : Float := Float.ofInt (last.ts - first.ts) / 60000.0

def dollarVolume (tape : Tape) (window : Span) : Float :=
  match tape.quoteEnds? window with
  | some (first, last) => volumeBetween first last
  | none => 0.0

def volumeRate (tape : Tape) (window : Span) : Float :=
  match tape.quoteEnds? window with
  | some (first, last) =>
    let minutes := minutesBetween first last
    if 0.0 < minutes then volumeBetween first last / minutes else 0.0
  | none => 0.0

def priceChange (tape : Tape) (window : Span) : Float :=
  match tape.quoteEnds? window with
  | some (first, last) => Float.ofInt (last.price - first.price).toInt
  | none => 0.0

def tradeFlow (tape : Tape) (window : Span) : TradeFlow :=
  let trades := tape.tradesWithin window
  ⟨trades.length, SideTotals.ofTrades trades⟩

end Tape

end SignalDesk
