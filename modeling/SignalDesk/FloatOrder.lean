/-!
# Bounding floats

Of two floats the defined one counts; clamping leaves an undefined one alone.
-/

namespace SignalDesk.FloatOrder

def min (a b : Float) : Float := if a < b || b.isNaN then a else b

def max (a b : Float) : Float := if b < a || b.isNaN then a else b

def clamp (low high x : Float) : Float := if x < low then low else if high < x then high else x

/-- One with the sign of `x`, also for a zero. -/
def signum (x : Float) : Float :=
  if x.isNaN then x else if x.toBits < 0x8000000000000000 then 1.0 else -1.0

end SignalDesk.FloatOrder
