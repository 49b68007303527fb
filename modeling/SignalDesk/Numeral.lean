/-!
# Written numbers

A numeral is what a number looks like on paper: a sign, its digits and a power of ten. Trailing
zeros carry no meaning, so they are dropped before a numeral is read as a float.
-/

namespace SignalDesk

/-- The number `± digits * 10 ^ exponent`. -/
structure Numeral where
  negative : Bool
  digits : Nat
  exponent : Int
  deriving DecidableEq

def digitsValue (digits : List Char) : Nat :=
  digits.foldl (fun value c => 10 * value + (c.toNat - '0'.toNat)) 0

theorem digitsValue_append_singleton (digits : List Char) (c : Char) :
    digitsValue (digits ++ [c]) = 10 * digitsValue digits + (c.toNat - '0'.toNat) := by
  simp [digitsValue, List.foldl_append]

def fitsInt64 (n : Int) : Bool := -9223372036854775808 ≤ n && n ≤ 9223372036854775807

namespace Numeral

/-- Moves the trailing zeros of a digit string into its exponent. -/
def stripZeros (digits : Nat) (exponent : Int) : Nat × Int :=
  if digits = 0 then (0, 0)
  else if digits % 10 = 0 then stripZeros (digits / 10) (exponent + 1)
  else (digits, exponent)
termination_by digits
decreasing_by omega

private theorem stripZeros_mul_ten (digits : Nat) (exponent : Int) :
    stripZeros (digits * 10) exponent = stripZeros digits (exponent + 1) := by
  conv => lhs; unfold stripZeros
  by_cases h : digits = 0
  · subst h
    simp [stripZeros]
  · have h10 : digits * 10 ≠ 0 := by omega
    simp [h10]

/-- The float nearest to `digits * 10 ^ exponent`. Beyond the powers tested here every number is
nearest to infinity or to zero, so the power itself is never formed. -/
def nearest (digits : Nat) (exponent : Int) : Float :=
  let order := exponent + (Nat.toDigits 10 digits).length
  if digits = 0 || order < -400 then 0.0
  else if 400 < order then 1.0 / 0.0
  else Float.ofScientific digits (exponent < 0) exponent.natAbs

/-- The float nearest to a numeral, an even mantissa breaking ties. -/
def toFloat (numeral : Numeral) : Float :=
  let (digits, exponent) := stripZeros numeral.digits numeral.exponent
  let magnitude := nearest digits exponent
  if numeral.negative then -magnitude else magnitude

theorem toFloat_mul_ten (negative : Bool) (digits : Nat) (exponent : Int) :
    toFloat ⟨negative, digits * 10, exponent⟩ = toFloat ⟨negative, digits, exponent + 1⟩ := by
  simp [toFloat, stripZeros_mul_ten]

end Numeral

end SignalDesk
