import SignalDesk.Blank
import SignalDesk.Time.Span
import SignalDesk.Market.Contracts

/-!
# Market records

An update of one instrument is a trade or a quote. Prices are whole cents from 0 to 100. A record
is valid when its numbers make sense for a binary market.
-/

namespace SignalDesk

/-- An execution; `price` is what the taker paid on `side`. -/
structure Trade where
  instrument : String
  ts : Timestamp
  side : Side
  count : Contracts
  price : Int64
  deriving DecidableEq

/-- The top of the book, with the last YES price and cumulative volumes. -/
structure Quote where
  instrument : String
  ts : Timestamp
  price : Int64
  yesBid : Int64
  yesAsk : Int64
  volume : Int64
  dollarVolume : Int64
  deriving DecidableEq

namespace Quote

def spread (quote : Quote) : Int64 := quote.yesAsk - quote.yesBid

def midpoint (quote : Quote) : Float := Float.ofInt (quote.yesBid + quote.yesAsk).toInt / 2.0

/-- The best price at which `side` can be bought. -/
def askFor (quote : Quote) : Side → Int64
  | .yes => quote.yesAsk
  | .no => 100 - quote.yesBid

/-- The best price at which `side` can be sold. -/
def bidFor (quote : Quote) : Side → Int64
  | .yes => quote.yesBid
  | .no => 100 - quote.yesAsk

end Quote

inductive Record where
  | trade (trade : Trade)
  | quote (quote : Quote)
  deriving DecidableEq

inductive RecordFault where
  | blankInstrument
  | noContracts
  | tooManyContracts (count : Contracts)
  | tradePrice (price : Int64)
  | bookPrice (bid ask : Int64)
  | crossedBook (bid ask : Int64)
  | lastPrice (price : Int64)
  | negativeVolume
  deriving DecidableEq

def maxTradeCount : Contracts := 1000000000

namespace RecordFault

def field : RecordFault → String
  | blankInstrument => "instrument"
  | noContracts => "count"
  | tooManyContracts _ => "count"
  | tradePrice _ => "price"
  | bookPrice _ _ => "yes_bid/yes_ask"
  | crossedBook _ _ => "yes_bid/yes_ask"
  | lastPrice _ => "price"
  | negativeVolume => "volume"

def reason : RecordFault → String
  | blankInstrument => "empty"
  | noContracts => "must be positive"
  | tooManyContracts count => s!"{count} above {maxTradeCount}"
  | tradePrice price => s!"{price} outside (0, 100)"
  | bookPrice bid ask => s!"{bid}/{ask} outside [0, 100]"
  | crossedBook bid ask => s!"crossed book {bid}/{ask}"
  | lastPrice price => s!"{price} outside [0, 100]"
  | negativeVolume => "negative cumulative volume"

def message (fault : RecordFault) : String := s!"Invalid {fault.field}: {fault.reason}"

end RecordFault

/-- A price in whole cents, bounds included. -/
def isCents (price : Int64) : Bool := 0 ≤ price && price ≤ 100

namespace Trade

def fault? (trade : Trade) : Option RecordFault :=
  if trade.count = 0 then some .noContracts
  else if maxTradeCount < trade.count then some (.tooManyContracts trade.count)
  else if trade.price ≤ 0 || 100 ≤ trade.price then some (.tradePrice trade.price)
  else none

end Trade

namespace Quote

def fault? (quote : Quote) : Option RecordFault :=
  if !isCents quote.yesBid || !isCents quote.yesAsk then some (.bookPrice quote.yesBid quote.yesAsk)
  else if quote.yesAsk < quote.yesBid then some (.crossedBook quote.yesBid quote.yesAsk)
  else if !isCents quote.price then some (.lastPrice quote.price)
  else if quote.volume < 0 || quote.dollarVolume < 0 then some .negativeVolume
  else none

end Quote

namespace Record

def instrument : Record → String
  | trade t => t.instrument
  | quote q => q.instrument

def ts : Record → Timestamp
  | trade t => t.ts
  | quote q => q.ts

def kind : Record → String
  | trade _ => "trade"
  | quote _ => "quote"

def trade? : Record → Option Trade
  | trade t => some t
  | quote _ => none

def quote? : Record → Option Quote
  | trade _ => none
  | quote q => some q

def fault? (record : Record) : Option RecordFault :=
  if isBlankText record.instrument then some .blankInstrument
  else
    match record with
    | trade t => t.fault?
    | quote q => q.fault?

def isValid (record : Record) : Bool := record.fault?.isNone

end Record

end SignalDesk
