import SignalDesk.Rounding
import SignalDesk.Decimal.Basic

/-!
# Decimal arithmetic

Every operation computes the exact result and, where it does not fit, gives up decimal places,
rounding half to even. It answers `none` only when no places are left to give up.
-/

namespace SignalDesk.Decimal

/-- The least number of digits to drop from `n` so that the rest fits a mantissa. -/
def excessDigits (n : Nat) : Nat :=
  if n < mantissaBound then 0 else excessDigits (n / 10) + 1
termination_by n
decreasing_by
  have : 0 < n := by unfold mantissaBound at *; omega
  omega

/-- The exact magnitude `n / 10 ^ scale` at the largest scale at which it can be held. -/
def fit? (negative : Bool) (n scale : Nat) : Option Decimal :=
  let drop := Nat.max (excessDigits n) (scale - maxScale)
  let rounded := roundHalfEven n (Nat.pow 10 drop)
  if rounded < mantissaBound then
    if drop ≤ scale then ofMagnitude? negative rounded (scale - drop) else none
  else if drop < scale then
    ofMagnitude? negative (roundHalfEven n (Nat.pow 10 (drop + 1))) (scale - (drop + 1))
  else none

/-- The sum, at the larger of the two scales if it fits; adding zero changes nothing. -/
def add? (a b : Decimal) : Option Decimal :=
  if a.isZero then some b
  else if b.isZero then some a
  else
    let scale := Nat.max a.scale b.scale
    let sum := a.mantissa * Nat.pow 10 (scale - a.scale) + b.mantissa * Nat.pow 10 (scale - b.scale)
    fit? (sum < 0) sum.natAbs scale

def sub? (a b : Decimal) : Option Decimal := add? a (-b)

/-- Whether a factor fits in half a machine word. -/
def isShort (a : Decimal) : Bool := a.magnitude < UInt32.size

/-- The product, at the sum of the scales if it fits; a product of short factors that is too
small to show is plain zero. -/
def mul? (a b : Decimal) : Option Decimal :=
  if a.isZero || b.isZero then some zero
  else
    let scale := a.scale + b.scale
    if 47 < scale && a.isShort && b.isShort then some zero
    else fit? (a.isNegative != b.isNegative) (a.magnitude * b.magnitude) scale

/-- The most digits, nine at once, by which a quotient can grow. -/
def growth (value : Nat) (scale : Int) : Nat :=
  ((List.range 10).filter fun x : Nat =>
    scale + x ≤ maxScale ∧ value * Nat.pow 10 x < mantissaBound).getLast?.getD 0

/-- Rounds away the last digit of a quotient that has outgrown the mantissa. -/
def dropDigit? (value : Nat) (inexact : Bool) (scale : Int) : Option (Nat × Int) :=
  if scale ≤ 0 then none
  else
    let digit := value % 10
    let up := 5 < digit || digit == 5 && (inexact || value / 10 % 2 == 1)
    some (value / 10 + up.toNat, scale - 1)

def roundRest? (divisor value rest : Nat) (scale : Int) : Option (Nat × Int) :=
  let up := divisor < 2 * rest || 2 * rest == divisor && value % 2 == 1
  let rounded := value + up.toNat
  if rounded < mantissaBound then some (rounded, scale) else dropDigit? rounded true scale

/-- Long division: extends the quotient `value` by the remainder `rest` as far as there is room. -/
def extend? (divisor value rest : Nat) (scale : Int) : Option (Nat × Int) :=
  if rest = 0 then
    if 0 ≤ scale then some (value, scale)
    else
      let x := Nat.min 9 scale.natAbs
      let grown := value * Nat.pow 10 x
      if grown < mantissaBound then extend? divisor grown 0 (scale + x)
      else none
  else if maxScale ≤ scale then roundRest? divisor value rest scale
  else
    let x := growth value scale
    if scale + x < 0 ∧ x < 9 then none
    else if x = 0 then roundRest? divisor value rest scale
    else
      let scaled := rest * Nat.pow 10 x
      let grown := value * Nat.pow 10 x + scaled / divisor
      if grown < mantissaBound then extend? divisor grown (scaled % divisor) (scale + x)
      else dropDigit? grown (scaled % divisor != 0) (scale + x)
termination_by (maxScale - scale).toNat
decreasing_by
  · have : Nat.min 9 scale.natAbs ≠ 0 := by
      have := Nat.min_def (n := 9) (m := scale.natAbs)
      grind
    unfold maxScale; omega
  · unfold maxScale at *; omega

/-- Takes `10 ^ step` out of a value when its low bits and its scale allow it. -/
def stripPower (step bits : Nat) (quotient : Nat × Int) : Nat × Int :=
  let (value, scale) := quotient
  let unit := Nat.pow 10 step
  if value % Nat.pow 2 bits = 0 ∧ step ≤ scale ∧ value % unit = 0 then (value / unit, scale - step)
  else (value, scale)

/-- Removes the zeros that extending a quotient has put at its end. -/
def trim (quotient : Nat × Int) : Nat × Int :=
  let eights := stripPower 8 32 (stripPower 8 32 (stripPower 8 32 quotient))
  stripPower 1 1 (stripPower 2 2 (stripPower 4 4 eights))

/-- The quotient, exact at the difference of the scales or else with as many digits as fit. -/
def div? (a b : Decimal) : Option Decimal :=
  if b.isZero then none
  else if a.isZero then some zero
  else
    let rest := a.magnitude % b.magnitude
    match extend? b.magnitude (a.magnitude / b.magnitude) rest ((a.scale : Int) - b.scale) with
    | none => none
    | some quotient =>
      let (value, scale) := if rest = 0 then quotient else trim quotient
      ofMagnitude? (a.isNegative != b.isNegative) value scale.toNat

end SignalDesk.Decimal
