import Mathlib
import SignalDesk.Decimal.Arithmetic

/-!
# The value of an amount

An amount stands for a rational number. Its order is the order of the values, and the amounts whose
value is zero are those without a magnitude.
-/

namespace SignalDesk.Decimal

/-- The number that an amount stands for. -/
def toRat (a : Decimal) : ℚ := a.mantissa / 10 ^ a.scale

private theorem ten_pow_pos (n : Nat) : (0 : ℚ) < 10 ^ n := by positivity

theorem lt_iff_toRat (a b : Decimal) : a < b ↔ a.toRat < b.toRat := by
  change a.mantissa * (Nat.pow 10 b.scale : Nat) < b.mantissa * (Nat.pow 10 a.scale : Nat) ↔ _
  unfold toRat
  rw [div_lt_div_iff₀ (ten_pow_pos a.scale) (ten_pow_pos b.scale), ← Int.cast_lt (R := ℚ)]
  simp

theorem le_iff_toRat (a b : Decimal) : a ≤ b ↔ a.toRat ≤ b.toRat := by
  change a.mantissa * (Nat.pow 10 b.scale : Nat) ≤ b.mantissa * (Nat.pow 10 a.scale : Nat) ↔ _
  unfold toRat
  rw [div_le_div_iff₀ (ten_pow_pos a.scale) (ten_pow_pos b.scale), ← Int.cast_le (R := ℚ)]
  simp

protected theorem le_refl (a : Decimal) : a ≤ a := (le_iff_toRat a a).2 le_rfl

protected theorem le_trans {a b c : Decimal} (h : a ≤ b) (h' : b ≤ c) : a ≤ c := by
  rw [le_iff_toRat] at h h' ⊢
  exact h.trans h'

@[simp] theorem toRat_zero : zero.toRat = 0 := by simp [toRat, zero, mantissa]

@[simp] theorem toRat_ofInt64 (n : Int64) : (ofInt64 n).toRat = n.toInt := by
  have hmantissa : (ofInt64 n).mantissa = n.toInt := by
    change (if decide (n.toInt < 0) = true then -(n.toInt.natAbs : Int) else n.toInt.natAbs) = _
    simp only [decide_eq_true_iff]
    split <;> omega
  rw [toRat, hmantissa, ofInt64, pow_zero, div_one]

@[simp] theorem toRat_hundred : hundred.toRat = 100 := by
  norm_num [toRat, mantissa, hundred]

theorem toRat_nonneg_iff (a : Decimal) : 0 ≤ a.toRat ↔ 0 ≤ a.mantissa := by
  rw [toRat, le_div_iff₀ (ten_pow_pos a.scale), zero_mul]
  exact Int.cast_nonneg_iff

theorem zero_le_iff (a : Decimal) : zero ≤ a ↔ 0 ≤ a.toRat := by rw [le_iff_toRat, toRat_zero]

theorem mantissa_natAbs (a : Decimal) : a.mantissa.natAbs = a.magnitude := by
  unfold mantissa
  split <;> simp

private theorem toRat_eq_zero_iff (a : Decimal) : a.toRat = 0 ↔ a.magnitude = 0 := by
  rw [toRat, div_eq_zero_iff, or_iff_left (ten_pow_pos a.scale).ne', Int.cast_eq_zero,
    ← Int.natAbs_eq_zero, mantissa_natAbs]

theorem isZero_iff (a : Decimal) : a.isZero = true ↔ a.toRat = 0 := by
  rw [toRat_eq_zero_iff, isZero, beq_iff_eq]

theorem toRat_nonneg_of_sign {a : Decimal} (h : a.isNegative = false) : 0 ≤ a.toRat := by
  rw [toRat_nonneg_iff, mantissa, h]
  simp

theorem sign_of_toRat_pos {a : Decimal} (h : 0 < a.toRat) : a.isNegative = false := by
  cases hs : a.isNegative with
  | false => rfl
  | true =>
    rw [toRat, lt_div_iff₀ (ten_pow_pos a.scale), zero_mul, Int.cast_pos, mantissa, if_pos hs] at h
    omega

private theorem mantissa_neg (a : Decimal) : (-a).mantissa = -a.mantissa := by
  change (Decimal.neg a).mantissa = _
  unfold Decimal.neg mantissa isZero
  by_cases hz : a.magnitude = 0 <;> cases hs : a.isNegative <;> simp [hz]

@[simp] theorem scale_neg (a : Decimal) : (-a).scale = a.scale := rfl

@[simp] theorem toRat_neg (a : Decimal) : (-a).toRat = -a.toRat := by
  simp [toRat, mantissa_neg, neg_div]

theorem toRat_max (a b : Decimal) : (a.max b).toRat = Max.max a.toRat b.toRat := by
  unfold max
  split <;> rename_i h
  · rw [lt_iff_toRat] at h
    exact (max_eq_right h.le).symm
  · rw [lt_iff_toRat, not_lt] at h
    exact (max_eq_left h).symm

theorem max_eq_or (a b : Decimal) : a.max b = a ∨ a.max b = b := by
  unfold max
  split
  · exact .inr rfl
  · exact .inl rfl

theorem le_max_left (a b : Decimal) : a ≤ a.max b := by
  simp [le_iff_toRat, toRat_max]

theorem le_max_right (a b : Decimal) : b ≤ a.max b := by
  simp [le_iff_toRat, toRat_max]

end SignalDesk.Decimal
