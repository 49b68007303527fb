import SignalDesk.Proofs.Decimal.Sum

/-!
# Rounding errors

A result that is rounded is off by less than one part in `10 ^ 28`, since it has given up places only
for a mantissa near its bound. A quotient that does not end also stops at the last place there is.
-/

namespace SignalDesk

/-- The last decimal place, which is also the largest relative error of a result. -/
def ulp : ℚ := 1 / 10 ^ 28

theorem ulp_pos : 0 < ulp := by norm_num [ulp]

namespace Decimal

private theorem roundHalfEven_error (n : Nat) {d : Nat} (hd : 0 < d) :
    |(roundHalfEven n d * d : ℚ) - n| ≤ d / 2 := by
  have hdiv := Nat.div_add_mod n d
  have hmod := Nat.mod_lt n hd
  have hbounds : 2 * n ≤ 2 * (roundHalfEven n d * d) + d ∧ 2 * (roundHalfEven n d * d) ≤ 2 * n + d := by
    unfold roundHalfEven
    have hmul (k : Nat) : (n / d + k) * d = d * (n / d) + k * d := by ring
    split
    · rw [← Nat.add_zero (n / d), hmul]
      omega
    · split
      · rw [hmul]
        omega
      · rw [hmul]
        rcases Nat.mod_two_eq_zero_or_one (n / d) with h | h <;> rw [h] <;> omega
  obtain ⟨hlow, hhigh⟩ := hbounds
  have hlow' : (2 * n : ℚ) ≤ 2 * (roundHalfEven n d * d) + d := by exact_mod_cast hlow
  have hhigh' : (2 * (roundHalfEven n d * d) : ℚ) ≤ 2 * n + d := by exact_mod_cast hhigh
  rw [abs_le]
  constructor <;> linarith

def signed (negative : Bool) (x : ℚ) : ℚ := if negative then -x else x

theorem abs_signed_sub (negative : Bool) (x y : ℚ) :
    |signed negative x - signed negative y| = |x - y| := by
  cases negative with
  | false => rfl
  | true =>
    rw [signed, signed, if_pos rfl, if_pos rfl, neg_sub_neg, abs_sub_comm]

theorem abs_signed (negative : Bool) (x : ℚ) : |signed negative x| = |x| := by
  cases negative <;> simp [signed]

theorem abs_toRat (a : Decimal) : |a.toRat| = a.magnitude / 10 ^ a.scale := by
  rw [toRat, abs_div, abs_of_pos (by positivity : (0 : ℚ) < 10 ^ a.scale), ← Int.cast_abs,
    Int.abs_eq_natAbs, mantissa_natAbs, Int.cast_natCast]

theorem toRat_eq_signed (a : Decimal) : a.toRat = signed a.isNegative (a.magnitude / 10 ^ a.scale) := by
  unfold toRat mantissa signed
  cases a.isNegative <;> simp [neg_div]

theorem signed_mul (s t : Bool) (x y : ℚ) :
    signed s x * signed t y = signed (s != t) (x * y) := by
  cases s <;> cases t <;> simp [signed]

private theorem fit?_error {negative : Bool} {n scale : Nat} {r : Decimal} (hs : scale ≤ maxScale)
    (h : fit? negative n scale = some r) :
    |r.toRat - signed negative (n / 10 ^ scale)| ≤ ulp * |signed negative (n / 10 ^ scale)| := by
  obtain ⟨d, hd, hscale, hmag, hsign, hbig⟩ := fit?_eq_some hs h
  have hp : (0 : ℚ) < 10 ^ scale := by positivity
  have hvalue : r.toRat = signed negative (roundHalfEven n (10 ^ d) * 10 ^ d / 10 ^ scale) := by
    have hten : (10 : ℚ) ^ scale = 10 ^ (scale - d) * 10 ^ d := by
      rw [← pow_add, Nat.sub_add_cancel hd]
    rw [toRat, fit?_mantissa hmag hsign, hscale, hten,
      mul_div_mul_right _ _ (by positivity : (10 : ℚ) ^ d ≠ 0), signed]
    cases negative <;> simp [neg_div]
  rw [hvalue, abs_signed_sub, abs_signed, ← sub_div, abs_div, abs_of_pos hp,
    abs_of_nonneg (by positivity : (0 : ℚ) ≤ n / 10 ^ scale), ← mul_div_assoc]
  gcongr
  rcases Nat.eq_zero_or_pos d with rfl | hpos
  · rw [pow_zero, pow_zero, roundHalfEven_of_dvd Nat.one_pos (Nat.one_dvd n), Nat.div_one, mul_one,
      sub_self, abs_zero]
    exact mul_nonneg ulp_pos.le (Nat.cast_nonneg n)
  · -- what is given up is less than five parts in a mantissa near its bound
    obtain ⟨e, rfl⟩ : ∃ e, d = e + 1 := ⟨d - 1, by omega⟩
    have hlarge := hbig.resolve_left (Nat.succ_ne_zero e)
    rw [Nat.add_sub_cancel] at hlarge
    have hlarge' : ((2 * mantissaBound - 1 : Nat) : ℚ) * 10 ^ e ≤ 2 * n := by exact_mod_cast hlarge
    have herror := roundHalfEven_error n (show 0 < 10 ^ (e + 1) by positivity)
    have hten : (10 : ℚ) ^ (e + 1) = 10 * 10 ^ e := by rw [pow_succ, mul_comm]
    push_cast at herror
    rw [hten] at herror ⊢
    refine herror.trans ?_
    unfold mantissaBound at hlarge'
    norm_num at hlarge'
    rw [ulp]
    linarith

theorem add?_error {a b r : Decimal} (h : a.add? b = some r) :
    |r.toRat - (a.toRat + b.toRat)| ≤ ulp * |a.toRat + b.toRat| := by
  have hnonneg : 0 ≤ ulp * |a.toRat + b.toRat| := mul_nonneg ulp_pos.le (abs_nonneg _)
  cases hza : a.isZero with
  | true =>
    simp only [add?, hza, if_true, Option.some.injEq] at h
    have hexact : r.toRat = a.toRat + b.toRat := by rw [← h, (isZero_iff a).1 hza, zero_add]
    rwa [hexact, sub_self, abs_zero]
  | false =>
    cases hzb : b.isZero with
    | true =>
      simp only [add?, hza, hzb, Bool.false_eq_true, if_false, if_true, Option.some.injEq] at h
      have hexact : r.toRat = a.toRat + b.toRat := by rw [← h, (isZero_iff b).1 hzb, add_zero]
      rwa [hexact, sub_self, abs_zero]
    | false =>
      rw [add?_of_nonzero hza hzb] at h
      have hfit := fit?_error (max_scale_le a b) h
      have hsum : signed (decide (alignedSum a b < 0))
          ((alignedSum a b).natAbs / 10 ^ Nat.max a.scale b.scale) = a.toRat + b.toRat := by
        rw [alignedSum_toRat, ← Int.cast_natCast (R := ℚ) (alignedSum a b).natAbs]
        rcases lt_or_ge (alignedSum a b) 0 with hneg | hpos
        · rw [signed, if_pos (decide_eq_true hneg), Int.ofNat_natAbs_of_nonpos hneg.le]
          push_cast
          ring
        · rw [signed, if_neg (by simpa using hpos), Int.natAbs_of_nonneg hpos]
      rwa [hsum] at hfit

theorem sub?_error {a b r : Decimal} (h : a.sub? b = some r) :
    |r.toRat - (a.toRat - b.toRat)| ≤ ulp * |a.toRat - b.toRat| := by
  have hadd := add?_error h
  rwa [toRat_neg, ← sub_eq_add_neg] at hadd

theorem mul?_error {a b r : Decimal} (h : a.mul? b = some r) (hscale : a.scale + b.scale ≤ maxScale) :
    |r.toRat - a.toRat * b.toRat| ≤ ulp * |a.toRat * b.toRat| := by
  have hnonneg : 0 ≤ ulp * |a.toRat * b.toRat| := mul_nonneg ulp_pos.le (abs_nonneg _)
  cases hz : a.isZero || b.isZero with
  | true =>
    rw [mul?, if_pos hz, Option.some.injEq] at h
    have hexact : a.toRat * b.toRat = 0 := by
      rcases Bool.or_eq_true_iff.1 hz with hz | hz <;> simp [(isZero_iff _).1 hz]
    rw [← h, hexact, toRat_zero, sub_self, abs_zero, mul_zero]
  | false =>
    have hshort : ¬ (47 < a.scale + b.scale) := by
      unfold maxScale at hscale
      omega
    simp only [mul?, hz, hshort, Bool.false_eq_true, if_false, decide_false, Bool.false_and] at h
    have hfit := fit?_error hscale h
    have hproduct : signed (a.isNegative != b.isNegative)
        ((a.magnitude * b.magnitude : Nat) / 10 ^ (a.scale + b.scale)) = a.toRat * b.toRat := by
      rw [toRat_eq_signed a, toRat_eq_signed b, signed_mul, pow_add, Nat.cast_mul,
        div_mul_div_comm]
    rwa [hproduct] at hfit

end Decimal

end SignalDesk
