/-!
# Timestamps and spans

A timestamp is a whole number of milliseconds since 1970 in UTC and a span is a difference of two.
Both have bounds: a span fits in 64 bits, and the calendar reaches from the year -262143 to 262142.
-/

namespace SignalDesk

/-- Milliseconds since the start of 1970. -/
abbrev Timestamp := Int

/-- A length of time in milliseconds. -/
abbrev Span := Int

/-- The start of the year -262143. -/
def earliest : Timestamp := -8334601228800000

/-- The last millisecond of the year 262142. -/
def latest : Timestamp := 8210266876799999

def longestSpan : Span := 9223372036854775807

/-- A span that has to stay within 64 bits. -/
def Span.check? (span : Int) : Option Span :=
  if span.natAbs ≤ longestSpan.natAbs then some span else none

/-- A number of seconds as a span; counts from `2 ^ 63` on are negative. -/
def Span.ofSeconds? (seconds : UInt64) : Option Span :=
  Span.check? (seconds.toInt64.toInt * 1000)

def Span.ofMinutes? (minutes : UInt64) : Option Span :=
  Span.check? (minutes.toInt64.toInt * 60000)

def Span.add? (a b : Span) : Option Span := Span.check? (a + b)

/-- Whole seconds, rounded toward zero. -/
def Span.wholeSeconds (span : Span) : Int := span.tdiv 1000

def Span.seconds (span : Span) : Float := Float.ofInt span / 1000

/-- The time that lies `span` before `ts`, if the calendar has it. -/
def Timestamp.before? (ts : Timestamp) (span : Span) : Option Timestamp :=
  if earliest ≤ ts - span ∧ ts - span ≤ latest then some (ts - span) else none

def Timestamp.inRange (ts : Int) : Bool := earliest ≤ ts && ts ≤ latest

end SignalDesk
