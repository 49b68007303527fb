import SignalDesk.FloatText
import SignalDesk.Risk.Terms
import SignalDesk.Signal.Reading

/-!
# Notices

Work leaves a trail of notices: counters to increment, gauges to set and lines to log. The metrics
are a view of the trail; a counter or a gauge that no notice touches is absent.
-/

namespace SignalDesk

inductive Counter where
  | recordsProcessed
  | recordsDropped
  | signalFired (signal : SignalKind)
  | composite (actionable : Bool)
  | positionOpened
  | positionClosed (reason : CloseReason)
  deriving DecidableEq

def Counter.series : Counter → String
  | recordsProcessed => "records_total"
  | recordsDropped => "records_dropped_total"
  | signalFired signal => "signal_fires_total\x7bsignal=\"" ++ signal.name ++ "\"\x7d"
  | composite actionable => "composites_total\x7bactionable=\"" ++ toString actionable ++ "\"\x7d"
  | positionOpened => "positions_opened_total"
  | positionClosed reason => "positions_closed_total\x7breason=\"" ++ reason.toText ++ "\"\x7d"

inductive Gauge where
  | balance (usd : Float)
  | drawdown (percent : Float)
  | openPositions (count : Nat)
  | halted (halted : Bool)

def Gauge.series : Gauge → String
  | balance _ => "balance_usd"
  | drawdown _ => "drawdown_pct"
  | openPositions _ => "open_positions"
  | halted _ => "halted"

/-- The value of a gauge; amounts have six decimals. -/
def Gauge.value : Gauge → Data
  | balance usd => .text (FloatText.fixed 6 usd)
  | drawdown percent => .text (FloatText.fixed 6 percent)
  | openPositions count => .int count
  | halted isHalted => .int isHalted.toNat

inductive LogLevel where
  | trace
  | debug
  | info
  | warn
  | error
  deriving DecidableEq

inductive LogSource where
  | program
  | replayCommand
  | composer
  | engine
  | instrument
  | sharded
  | feed
  | portfolio
  | position
  | telemetry
  deriving DecidableEq

structure LogLine where
  level : LogLevel
  source : LogSource
  message : String
  fields : List (String × Data)

inductive Notice where
  | count (counter : Counter)
  | gauge (gauge : Gauge)
  | log (line : LogLine)

namespace Notice

def counter? : Notice → Option Counter
  | count event => some event
  | _ => none

def gauge? : Notice → Option Gauge
  | gauge value => some value
  | _ => none

def logLine? : Notice → Option LogLine
  | log line => some line
  | _ => none

def logging (level : LogLevel) (source : LogSource) (message : String)
    (fields : List (String × Data)) : Notice :=
  .log ⟨level, source, message, fields⟩

end Notice

namespace Metrics

def count (counter : Counter) (trail : List Notice) : Nat :=
  (trail.filterMap Notice.counter?).count counter

/-- The last gauge that a trail sets in a series. -/
def gauge? (series : String) (trail : List Notice) : Option Gauge :=
  (trail.filterMap Notice.gauge?).reverse.find? fun gauge => gauge.series == series

def counters (trail : List Notice) : List Counter := (trail.filterMap Notice.counter?).eraseDups

/-- Every series that a trail touches, with its value. -/
def series (trail : List Notice) : List (String × Data) :=
  (counters trail).map (fun counter => (counter.series, .int (count counter trail))) ++
    ["balance_usd", "drawdown_pct", "open_positions", "halted"].filterMap fun name =>
      (gauge? name trail).map fun gauge => (name, gauge.value)

end Metrics

end SignalDesk
