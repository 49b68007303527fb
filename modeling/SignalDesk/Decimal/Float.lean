import SignalDesk.FloatText
import SignalDesk.Decimal.Basic

/-!
# An amount as a float

Gauges are floats. The whole part and the fraction are converted separately and their sum is
rounded to the scale of the amount.
-/

namespace SignalDesk

namespace FloatText

/-- The nearest whole number, a half going away from zero. -/
def roundAway (x : Float) : Float :=
  match shape x with
  | .nan => x
  | .infinite _ => x
  | .finite negative mantissa exponent =>
    let (num, den) := fraction mantissa exponent
    let magnitude := Float.ofNat ((2 * num + den) / (2 * den))
    if negative then -magnitude else magnitude

end FloatText

namespace Decimal

def powerBySquaring (base result : Float) (exponent : Nat) : Float :=
  let result := if exponent % 2 = 1 then result * base else result
  if exponent < 2 then result else powerBySquaring (base * base) result (exponent / 2)
termination_by exponent
decreasing_by omega

def toFloat (a : Decimal) : Float :=
  let unit := Nat.pow 10 a.scale
  let whole := Float.ofNat (a.magnitude / unit)
  let fraction := Float.ofNat (a.magnitude % unit) / Float.ofNat unit
  let magnitude :=
    if a.magnitude % unit = 0 then whole
    else
      let places := powerBySquaring 10 1 a.scale
      FloatText.roundAway ((whole + fraction) * places) / places
  if a.isNegative then -magnitude else magnitude

end Decimal

end SignalDesk
