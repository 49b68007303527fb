import SignalDesk.Rounding
import SignalDesk.Numeral

/-!
# The text of a float

A float is written with the fewest digits that read back as the same float, or with a fixed number
of decimal places. The digits are one matter and their layout another: `plain` never uses an
exponent, `scientific` does for very large and very small numbers.
-/

namespace SignalDesk

/-- What the bits of a float say; a finite float is `± mantissa * 2 ^ exponent`. -/
inductive FloatShape where
  | nan
  | infinite (negative : Bool)
  | finite (negative : Bool) (mantissa : Nat) (exponent : Int)
  deriving DecidableEq

/-- How two equally near candidates are told apart. -/
inductive TieRule where
  | toEven
  | upward
  deriving DecidableEq

namespace FloatText

def signUnit : Nat := 0x8000000000000000

/-- What the lowest bit of the exponent of a double counts for. -/
def fractionUnit : Nat := 0x10000000000000

def shapeOfBits (bits : Nat) : FloatShape :=
  let negative := bits / signUnit == 1
  let biased : Nat := bits / fractionUnit % 2048
  let fraction := bits % fractionUnit
  if biased = 2047 then
    if fraction = 0 then .infinite negative else .nan
  else if biased = 0 then .finite negative fraction (-1074)
  else .finite negative (fractionUnit + fraction) ((biased : Int) - 1075)

def shape (x : Float) : FloatShape := shapeOfBits x.toBits.toNat

def fraction (mantissa : Nat) (exponent : Int) : Nat × Nat :=
  if exponent < 0 then (mantissa, Nat.pow 2 exponent.natAbs)
  else (mantissa * Nat.pow 2 exponent.natAbs, 1)

def decimalDigits (n : Nat) : List Char := Nat.toDigits 10 n

/-- The `k` with `10 ^ k ≤ num / den < 10 ^ (k + 1)`, for positive `num` and `den`. -/
def decimalOrder (num den : Nat) : Int :=
  let guess : Int := (decimalDigits num).length - (decimalDigits den).length
  let below :=
    if guess < 0 then den ≤ num * Nat.pow 10 guess.natAbs else den * Nat.pow 10 guess.natAbs ≤ num
  if below then guess else guess - 1

/-- The two multiples of `10 ^ step` around `num / den`, the nearer one first. -/
def neighbours (tie : TieRule) (num den : Nat) (step : Int) : Nat × Nat :=
  let num := if step < 0 then num * Nat.pow 10 step.natAbs else num
  let den := if step < 0 then den else den * Nat.pow 10 step.natAbs
  let low := num / den
  let rest := num % den
  let upFirst :=
    if 2 * rest = den then
      match tie with
      | .toEven => low % 2 == 1
      | .upward => true
    else decide (den < 2 * rest)
  if upFirst then (low + 1, low) else (low, low + 1)

/-- Whether `digits * 10 ^ exponent` is read as the positive float `x`. -/
def readsAs (x : Float) (digits : Nat) (exponent : Int) : Bool :=
  (Numeral.toFloat ⟨false, digits, exponent⟩).toBits == x.toBits

/-- A numeral of `count` digits next to `num / den` that reads as `x`, if there is one. -/
def withDigits? (tie : TieRule) (x : Float) (num den : Nat) (order : Int) (count : Nat) :
    Option (Nat × Int) :=
  let step := order + 1 - count
  let (near, far) := neighbours tie num den step
  if readsAs x near step then some (near, step)
  else if readsAs x far step then some (far, step)
  else none

def exactDigits (mantissa : Nat) (exponent : Int) : Nat × Int :=
  if exponent < 0 then (mantissa * Nat.pow 5 exponent.natAbs, exponent)
  else (mantissa * Nat.pow 2 exponent.natAbs, 0)

/-- The fewest digits that read as a positive finite float, the nearest of those. -/
def shortest (tie : TieRule) (mantissa : Nat) (exponent : Int) (x : Float) : Nat × Int :=
  let (num, den) := fraction mantissa exponent
  let order := decimalOrder num den
  let found := (List.range 17).findSome? fun n => withDigits? tie x num den order (n + 1)
  let (digits, exponent) := found.getD (exactDigits mantissa exponent)
  Numeral.stripZeros digits exponent

/-- Digits with the decimal point after the first `point` of them, padded with zeros. -/
def positional (digits : List Char) (point : Int) : List Char × List Char :=
  if point ≤ 0 then (['0'], List.replicate point.natAbs '0' ++ digits)
  else
    let whole := point.natAbs
    (digits.take whole ++ List.replicate (whole - digits.length) '0', digits.drop whole)

def sign (negative : Bool) : List Char := if negative then ['-'] else []

/-- Joins a whole part and a fraction; an empty fraction takes the point with it. -/
def joinPoint (whole fraction : List Char) : List Char :=
  if fraction.isEmpty then whole else whole ++ '.' :: fraction

/-- Positional notation whatever the size: `-0.00000000015`, `0`, `1.5`. -/
def plain (x : Float) : String :=
  match shape x with
  | .nan => "NaN"
  | .infinite negative => String.ofList (sign negative ++ "inf".toList)
  | .finite negative 0 _ => String.ofList (sign negative ++ ['0'])
  | .finite negative mantissa exponent =>
    let (digits, exponent) := shortest .upward mantissa exponent x.abs
    let digits := decimalDigits digits
    let (whole, fraction) := positional digits (digits.length + exponent)
    String.ofList (sign negative ++ joinPoint whole fraction)

/-- The fraction a document format insists on: whole numbers keep `.0`. -/
def orZero (fraction : List Char) : List Char := if fraction.isEmpty then ['0'] else fraction

/-- Positional notation that always shows a fraction. -/
def pointed (x : Float) : String :=
  match shape x with
  | .nan => "nan"
  | .infinite negative => String.ofList (sign negative ++ "inf".toList)
  | .finite negative 0 _ => String.ofList (sign negative ++ "0.0".toList)
  | .finite negative mantissa exponent =>
    let (digits, exponent) := shortest .upward mantissa exponent x.abs
    let digits := decimalDigits digits
    let (whole, fraction) := positional digits (digits.length + exponent)
    String.ofList (sign negative ++ joinPoint whole (orZero fraction))

def integerText (n : Int) : List Char := sign (n < 0) ++ decimalDigits n.natAbs

/-- Positional from `1e-5` up to `1e16`, with an exponent beyond; `none` unless finite. -/
def scientific? (x : Float) : Option String :=
  match shape x with
  | .nan => none
  | .infinite _ => none
  | .finite negative 0 _ => some (String.ofList (sign negative ++ "0.0".toList))
  | .finite negative mantissa exponent =>
    let (digits, exponent) := shortest .toEven mantissa exponent x.abs
    let digits := decimalDigits digits
    let point := digits.length + exponent
    let body :=
      if -5 < point ∧ point ≤ 16 then
        let (whole, fraction) := positional digits point
        joinPoint whole (orZero fraction)
      else joinPoint (digits.take 1) (digits.drop 1) ++ 'e' :: integerText (point - 1)
    some (String.ofList (sign negative ++ body))

/-- Exactly `places` decimals of the exact binary value, a half going to the even digit. -/
def fixed (places : Nat) (x : Float) : String :=
  match shape x with
  | .nan => "NaN"
  | .infinite negative => String.ofList (sign negative ++ "inf".toList)
  | .finite negative mantissa exponent =>
    let (num, den) := fraction mantissa exponent
    let scaled := roundHalfEven (num * Nat.pow 10 places) den
    let decimals := decimalDigits (scaled % Nat.pow 10 places)
    let padded := List.replicate (places - decimals.length) '0' ++ decimals
    let whole := decimalDigits (scaled / Nat.pow 10 places)
    String.ofList (sign negative ++ joinPoint whole (if places = 0 then [] else padded))

/-- `fixed` with a plus sign on what is neither negative nor undefined. -/
def signedFixed (places : Nat) (x : Float) : String :=
  match shape x with
  | .nan => fixed places x
  | .infinite negative => if negative then fixed places x else "+" ++ fixed places x
  | .finite negative _ _ => if negative then fixed places x else "+" ++ fixed places x

end FloatText

end SignalDesk
