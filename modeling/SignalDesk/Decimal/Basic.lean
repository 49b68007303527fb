/-!
# Decimal amounts

Money and contracts are decimals with a 96-bit magnitude and at most 28 decimal places. The scale is
part of an amount: `1.50` and `1.5` compare equal and print differently. A zero keeps its sign only
where a negative amount was rounded to it, and the sign shows in print alone.
-/

namespace SignalDesk

/-- One past the largest magnitude. -/
def mantissaBound : Nat := 79228162514264337593543950336

def maxScale : Nat := 28

/-- The amount `± magnitude / 10 ^ scale`. -/
structure Decimal where
  isNegative : Bool
  magnitude : Nat
  scale : Nat
  magnitude_lt : magnitude < mantissaBound
  scale_le : scale ≤ maxScale
  deriving DecidableEq

namespace Decimal

def mantissa (a : Decimal) : Int := if a.isNegative then -(a.magnitude : Int) else a.magnitude

/-- The amount with a sign and a magnitude as they are, if they are in range. -/
def ofSigned? (isNegative : Bool) (magnitude scale : Nat) : Option Decimal :=
  if h : magnitude < mantissaBound ∧ scale ≤ maxScale then
    some ⟨isNegative, magnitude, scale, h.1, h.2⟩
  else none

/-- The amount with a sign and a magnitude, if they are in range; zero has no sign. -/
def ofMagnitude? (isNegative : Bool) (magnitude scale : Nat) : Option Decimal :=
  ofSigned? (isNegative && magnitude != 0) magnitude scale

def ofParts? (mantissa : Int) (scale : Nat) : Option Decimal :=
  ofMagnitude? (mantissa < 0) mantissa.natAbs scale

def zero : Decimal := ⟨false, 0, 0, by decide, by decide⟩

def hundred : Decimal := ⟨false, 100, 0, by decide, by decide⟩

instance : Inhabited Decimal := ⟨zero⟩

theorem natAbs_toInt_lt (n : Int64) : n.toInt.natAbs < mantissaBound := by
  have h₁ := n.le_toInt
  have h₂ := n.toInt_lt
  unfold mantissaBound
  omega

def ofInt64 (n : Int64) : Decimal :=
  ⟨n.toInt < 0, n.toInt.natAbs, 0, natAbs_toInt_lt n, by decide⟩

def isZero (a : Decimal) : Bool := a.magnitude == 0

/-- The opposite amount; a zero stays as it is. -/
protected def neg (a : Decimal) : Decimal := { a with isNegative := a.isNegative != !a.isZero }

instance : Neg Decimal := ⟨Decimal.neg⟩

/-- Amounts are ordered by value, whatever their scales. -/
protected def Lt (a b : Decimal) : Prop :=
  a.mantissa * Nat.pow 10 b.scale < b.mantissa * Nat.pow 10 a.scale

protected def Le (a b : Decimal) : Prop :=
  a.mantissa * Nat.pow 10 b.scale ≤ b.mantissa * Nat.pow 10 a.scale

instance : LT Decimal := ⟨Decimal.Lt⟩
instance : LE Decimal := ⟨Decimal.Le⟩

instance (a b : Decimal) : Decidable (a < b) :=
  inferInstanceAs (Decidable (a.mantissa * Nat.pow 10 b.scale < b.mantissa * Nat.pow 10 a.scale))

instance (a b : Decimal) : Decidable (a ≤ b) :=
  inferInstanceAs (Decidable (a.mantissa * Nat.pow 10 b.scale ≤ b.mantissa * Nat.pow 10 a.scale))

/-- The larger amount; of two equal ones the first, with its scale. -/
def max (a b : Decimal) : Decimal := if a < b then b else a

end Decimal

end SignalDesk
