import SignalDesk.FloatText
import SignalDesk.Stats
import SignalDesk.Config.Settings
import SignalDesk.Market.Tape
import SignalDesk.Signal.Reading

/-!
# Spread velocity

A least-squares line through the spread over a window. A spread that moves fast and steadily means
that liquidity providers are repricing; the drift of the midpoint tells which way.
-/

namespace SignalDesk.SpreadVelocity

open FloatText

/-- The slope, in cents per second, of full magnitude. -/
def fullScaleSlope : Float := 0.5

def points (first : SpreadPoint) (history : List SpreadPoint) : List (Float × Float) :=
  history.map fun point => (Span.seconds (point.ts - first.ts), point.spread)

def readFit (settings : SpreadVelocitySettings) (first last : SpreadPoint)
    (fit : Stats.LinearFit Float) : Reading :=
  let drift := last.midpoint - first.midpoint
  if fit.slope.abs < settings.velocityThreshold then
    .silent (s!"spread slope {signedFixed 3 fit.slope}c/s " ++
      s!"within {fixed 3 settings.velocityThreshold}c/s")
  else if drift == 0.0 then .silent "midpoint unchanged"
  else
    .bounded (FloatOrder.signum drift * FloatOrder.min (fit.slope.abs / fullScaleSlope) 1.0)
      (FloatOrder.max fit.rSquared 0.0)
      (s!"spread {fixed 1 first.spread}->{fixed 1 last.spread}c at {signedFixed 3 fit.slope}c/s " ++
        s!"(R2 {fixed 2 fit.rSquared}), midpoint {signedFixed 1 drift}c")

def read (settings : SpreadVelocitySettings) (window : Span) (tape : Tape) : Reading :=
  let history := tape.spreadHistory window
  if history.length < settings.minSnapshots.toNat then
    .silent s!"{history.length} snapshots < {settings.minSnapshots}"
  else
    match history.head?, history.getLast? with
    | some first, some last =>
      match Stats.linearFit (points first history) with
      | some fit => readFit settings first last fit
      | none => .silent "snapshots share one timestamp"
    | _, _ => .silent "no snapshots"

end SignalDesk.SpreadVelocity
