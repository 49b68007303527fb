import SignalDesk.Proofs.Float.Operations

/-!
# Running sums and means

A sum that is computed term by term drifts from the exact sum by a little with each term. When the
total of the weights is neither close to the largest float nor below the normal ones, a few terms
drift so little that the quotient of two such sums is the exact mean but for a billionth.
-/

namespace SignalDesk.FloatValue

private theorem roundoff_of_nonneg {v : ℚ} (h : 0 ≤ v) :
    roundoff v = 2 ^ (-52 : ℤ) * v + 2 ^ (-1074 : ℤ) := by
  rw [roundoff, abs_of_nonneg h]

theorem roundoff_mono {v w : ℚ} (h : |v| ≤ w) : roundoff v ≤ roundoff w := by
  rw [roundoff_of_nonneg ((abs_nonneg v).trans h), roundoff]
  gcongr

/-- What each term may add to the error of a running sum of at most `total`. -/
def drift (total : ℚ) : ℚ := 4 * roundoff total

private theorem drift_nonneg (total : ℚ) : 0 ≤ drift total := by
  have := roundoff_nonneg total
  unfold drift
  linarith

/-- The largest number of terms for which the bounds below are made. -/
def maxTerms : ℕ := 6

/-- The smallest total: the smallest float with all its bits. -/
@[irreducible]
def minTotal : ℚ := 2 ^ (-1022 : ℤ)

/-- The largest total: there is room for it and its drift below the largest float. -/
@[irreducible]
def maxTotal : ℚ := 2 ^ (1023 : ℤ)

private theorem minTotal_pos : 0 < minTotal := by
  unfold minTotal
  exact zpow_pos two_pos _

private theorem minTotal_le_one : minTotal ≤ 1 := by
  unfold minTotal
  exact zpow_le_one_of_nonpos₀ one_le_two (by norm_num)

private theorem two_le_two_zpow : (2 : ℚ) ≤ 2 ^ (1023 : ℤ) := by
  have : (2 : ℚ) ^ (1 : ℤ) ≤ 2 ^ (1023 : ℤ) := zpow_le_zpow_right₀ one_le_two (by norm_num)
  rwa [zpow_one] at this

section

variable {x y : Float} {sum term total : ℚ} {n : ℕ}

private theorem add_roundoff_le_largest (hnonneg : 0 ≤ total) (htotal : total ≤ maxTotal) :
    total + 25 * roundoff total ≤ largest := by
  have hsmall : (2 : ℚ) ^ (-1074 : ℤ) ≤ 2 ^ (0 : ℤ) := zpow_le_zpow_right₀ one_le_two (by norm_num)
  have hlarge : (2 : ℚ) ^ (10 : ℤ) ≤ 2 ^ (1023 : ℤ) := zpow_le_zpow_right₀ one_le_two (by norm_num)
  unfold maxTotal at htotal
  rw [roundoff_of_nonneg hnonneg, largest_eq]
  generalize (2 : ℚ) ^ (1023 : ℤ) = large at htotal hlarge
  generalize (2 : ℚ) ^ (-1074 : ℤ) = small at hsmall
  norm_num at hsmall hlarge ⊢
  linarith

/-- A running sum of `n` terms, which has drifted from `sum`. -/
abbrev Tracks (x : Float) (sum total : ℚ) (n : ℕ) : Prop := Near x sum (n * drift total)

theorem Tracks.mono {m : ℕ} (h : Tracks x sum total n) (hle : n ≤ m) : Tracks x sum total m := by
  have := drift_nonneg total
  apply Near.mono h
  gcongr

theorem Tracks.add (hx : Tracks x sum total n) (hy : Near y term (roundoff total))
    (hle : |sum + term| ≤ total) (htotal : total ≤ maxTotal) (hn : n < maxTerms) :
    Tracks (x + y) (sum + term) total (n + 1) := by
  obtain ⟨hx, hsum⟩ := hx
  obtain ⟨hy, hterm⟩ := hy
  have hnonneg : 0 ≤ total := (abs_nonneg _).trans hle
  have hroundoff := roundoff_nonneg total
  have hn : (n : ℚ) ≤ 5 := by exact_mod_cast Nat.le_of_lt_succ hn
  -- the exact sum of the two floats
  have hnear : |value x + value y - (sum + term)| ≤ 4 * n * roundoff total + roundoff total := by
    have htriangle := abs_add_le (value x - sum) (value y - term)
    have heq : value x - sum + (value y - term) = value x + value y - (sum + term) := by ring
    rw [heq] at htriangle
    unfold drift at hsum
    linarith
  have hdrift : 4 * n * roundoff total + roundoff total ≤ 21 * roundoff total := by nlinarith
  have hsize : |value x + value y| ≤ total + 21 * roundoff total := by
    have htriangle := abs_add_le (value x + value y - (sum + term)) (sum + term)
    rw [sub_add_cancel] at htriangle
    linarith
  have hroom := add_roundoff_le_largest hnonneg htotal
  obtain ⟨hfinite, hround⟩ := near_add hx hy (by linarith)
  -- its rounding
  have hloss : roundoff (value x + value y) ≤ 2 * roundoff total := by
    apply (roundoff_mono hsize).trans
    rw [roundoff_of_nonneg (by positivity)]
    have heq := roundoff_of_nonneg hnonneg
    have hsmall : (2 : ℚ) ^ (-52 : ℤ) * (21 * roundoff total) ≤ roundoff total := by
      have : (2 : ℚ) ^ (-52 : ℤ) * 21 ≤ 1 := by norm_num
      nlinarith
    linarith
  refine ⟨hfinite, ?_⟩
  have htriangle := abs_add_le (value (x + y) - (value x + value y))
    (value x + value y - (sum + term))
  rw [sub_add_sub_cancel] at htriangle
  unfold drift
  push_cast
  linarith

/-- How far a computed mean may be from the exact one. -/
def tolerance : ℚ := 1 / 10 ^ 9

private theorem roundoff_le_of_normal (hlow : minTotal ≤ total) :
    roundoff total ≤ total / 2 ^ 51 := by
  have hnonneg : 0 ≤ total := minTotal_pos.le.trans hlow
  have hsplit : (2 : ℚ) ^ (-1074 : ℤ) = 2 ^ (-52 : ℤ) * minTotal := by
    unfold minTotal
    rw [← zpow_add₀ two_ne_zero]
    rfl
  have hscaled : (2 : ℚ) ^ (-52 : ℤ) * minTotal ≤ 2 ^ (-52 : ℤ) * total := by gcongr
  have hunit : (2 : ℚ) ^ (-52 : ℤ) = 1 / 2 ^ 52 := by norm_num
  rw [roundoff_of_nonneg hnonneg, hsplit]
  rw [hunit] at hscaled ⊢
  linarith

/-- A few terms drift by no more than a tiny part of the total. -/
theorem drift_le_of_normal (hlow : minTotal ≤ total) :
    maxTerms * drift total ≤ total / 2 ^ 46 := by
  have hroundoff := roundoff_le_of_normal hlow
  have hpos : 0 < total := minTotal_pos.trans_le hlow
  unfold drift maxTerms
  push_cast
  linarith

private theorem quotient_error {a b : ℚ} (hpos : 0 < total) (hle : |sum| ≤ total)
    (ha : |a - sum| ≤ total / 2 ^ 46) (hb : |b - total| ≤ total / 2 ^ 46) :
    0 < b ∧ |a / b - sum / total| ≤ 1 / 2 ^ 44 := by
  have hhalf : total / 2 ≤ b := by
    have := (abs_le.1 hb).1
    linarith
  have hb0 : 0 < b := (half_pos hpos).trans_le hhalf
  have hmean : |sum / total| ≤ 1 := by
    rw [abs_div, abs_of_pos hpos, div_le_one hpos]
    exact hle
  have hcross : |sum / total * (total - b)| ≤ total / 2 ^ 46 := by
    rw [abs_mul, abs_sub_comm]
    calc |sum / total| * |b - total| ≤ 1 * |b - total| := by gcongr
      _ ≤ total / 2 ^ 46 := by rwa [one_mul]
  have hsplit : a / b - sum / total = (a - sum + sum / total * (total - b)) / b := by
    field_simp
    ring
  refine ⟨hb0, ?_⟩
  have htriangle := abs_add_le (a - sum) (sum / total * (total - b))
  rw [hsplit, abs_div, abs_of_pos hb0, div_le_iff₀ hb0]
  linarith

/-- The quotient of two running sums is the exact mean but for the tolerance. -/
theorem quotient_near (hx : Tracks x sum total maxTerms) (hy : Tracks y total total maxTerms)
    (hle : |sum| ≤ total) (hlow : minTotal ≤ total) :
    0 < value y ∧ Near (x / y) (sum / total) tolerance := by
  obtain ⟨hx, hsum⟩ := hx
  obtain ⟨hy, hweight⟩ := hy
  have hpos : 0 < total := minTotal_pos.trans_le hlow
  have hpart := drift_le_of_normal hlow
  obtain ⟨hy0, hquotient⟩ := quotient_error hpos hle (hsum.trans hpart) (hweight.trans hpart)
  have hmean : |sum / total| ≤ 1 := by
    rw [abs_div, abs_of_pos hpos, div_le_one hpos]
    exact hle
  have hsize : |value x / value y| ≤ 2 := by
    have htriangle := abs_add_le (value x / value y - sum / total) (sum / total)
    rw [sub_add_cancel] at htriangle
    linarith
  obtain ⟨hfinite, hround⟩ := near_div hx hy hy0.ne' (hsize.trans two_le_two_zpow)
  have hloss : roundoff (value x / value y) ≤ 1 / 2 ^ 50 := by
    have := roundoff_le_of_normal (minTotal_le_one.trans one_le_two)
    have := roundoff_mono hsize
    linarith
  refine ⟨hy0, hfinite, ?_⟩
  have htriangle := abs_add_le (value (x / y) - value x / value y)
    (value x / value y - sum / total)
  rw [sub_add_sub_cancel] at htriangle
  unfold tolerance
  linarith

end

end SignalDesk.FloatValue
