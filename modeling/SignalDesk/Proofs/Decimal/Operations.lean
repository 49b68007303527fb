import SignalDesk.Proofs.Act
import SignalDesk.Proofs.Decimal.Room
import SignalDesk.Risk.Portfolio

/-!
# The operations of the account

An operation whose exact result is at most `10 ^ 28` is carried out. Its result is off by one part in
`10 ^ 28` at most, a quotient by one part of it and one.
-/

namespace SignalDesk.Decimal

variable {a b r : Decimal}

private theorem lt_of_le_ten_pow {x : ℚ} (h : x ≤ 10 ^ 28) : x < mantissaBound - 1 := by
  refine h.trans_lt ?_
  norm_num [mantissaBound]

theorem add_ok (h : |a.toRat + b.toRat| ≤ 10 ^ 28) : ∃ r, a.add b = .ok r := by
  obtain ⟨r, hr⟩ := add?_of_lt (lt_of_le_ten_pow h)
  exact ⟨r, orAbort_ok_iff.2 hr⟩

theorem sub_ok (h : |a.toRat - b.toRat| ≤ 10 ^ 28) : ∃ r, a.sub b = .ok r := by
  obtain ⟨r, hr⟩ := sub?_of_lt (lt_of_le_ten_pow h)
  exact ⟨r, orAbort_ok_iff.2 hr⟩

theorem mul_ok (h : |a.toRat * b.toRat| ≤ 10 ^ 28) : ∃ r, a.mul b = .ok r := by
  obtain ⟨r, hr⟩ := mul?_of_lt (lt_of_le_ten_pow h)
  exact ⟨r, orAbort_ok_iff.2 hr⟩

theorem div_ok (hb : b.toRat ≠ 0) (h : |a.toRat / b.toRat| ≤ 10 ^ 28) : ∃ r, a.div b = .ok r := by
  have hzero : b.isZero = false := by
    rwa [Bool.eq_false_iff, ne_eq, isZero_iff]
  obtain ⟨r, hr⟩ := div?_of_lt hzero (lt_of_le_ten_pow h)
  exact ⟨r, orAbort_ok_iff.2 hr⟩

theorem add_error (h : a.add b = .ok r) :
    |r.toRat - (a.toRat + b.toRat)| ≤ ulp * |a.toRat + b.toRat| :=
  add?_error (orAbort_ok_iff.1 h)

theorem sub_error (h : a.sub b = .ok r) :
    |r.toRat - (a.toRat - b.toRat)| ≤ ulp * |a.toRat - b.toRat| :=
  sub?_error (orAbort_ok_iff.1 h)

theorem mul_error (h : a.mul b = .ok r) (hscale : b.scale = 0) :
    |r.toRat - a.toRat * b.toRat| ≤ ulp * |a.toRat * b.toRat| :=
  mul?_error (orAbort_ok_iff.1 h) (by rw [hscale]; exact a.scale_le)

theorem div_error (h : a.div b = .ok r) :
    |r.toRat - a.toRat / b.toRat| ≤ ulp * (1 + |a.toRat / b.toRat|) :=
  div?_error (orAbort_ok_iff.1 h)

private theorem abs_le_of_error {x y e : ℚ} (h : |x - y| ≤ e) : |x| ≤ |y| + e := by
  have := abs_sub_abs_le_abs_sub x y
  linarith

theorem abs_le_of_add (h : a.add b = .ok r) : |r.toRat| ≤ (1 + ulp) * (|a.toRat| + |b.toRat|) := by
  have hsum := abs_le_of_error (add_error h)
  have htriangle := abs_add_le a.toRat b.toRat
  have := ulp_pos
  nlinarith

theorem abs_le_of_sub (h : a.sub b = .ok r) : |r.toRat| ≤ (1 + ulp) * (|a.toRat| + |b.toRat|) := by
  have hdifference := abs_le_of_error (sub_error h)
  have htriangle := abs_sub a.toRat b.toRat
  have := ulp_pos
  nlinarith

theorem abs_le_of_mul (h : a.mul b = .ok r) (hscale : b.scale = 0) :
    |r.toRat| ≤ (1 + ulp) * |a.toRat * b.toRat| := by
  have hproduct := abs_le_of_error (mul_error h hscale)
  linarith

theorem abs_le_of_div (h : a.div b = .ok r) : |r.toRat| ≤ (1 + ulp) * |a.toRat / b.toRat| + ulp := by
  have hquotient := abs_le_of_error (div_error h)
  linarith

theorem ulp_le_of_pos (h : 0 < a.toRat) : ulp ≤ a.toRat := by
  have hmantissa : 1 ≤ a.mantissa := by
    rw [toRat, lt_div_iff₀ (by positivity), zero_mul, Int.cast_pos] at h
    exact h
  have hmantissa' : (1 : ℚ) ≤ a.mantissa := by exact_mod_cast hmantissa
  have hscale : (10 : ℚ) ^ a.scale ≤ 10 ^ 28 := pow_le_pow_right₀ (by norm_num) a.scale_le
  rw [ulp, toRat]
  gcongr

end SignalDesk.Decimal
