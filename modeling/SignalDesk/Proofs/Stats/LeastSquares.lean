import SignalDesk.Proofs.Stats.Moments

/-!
# The least-squares line

In fractions there is a line through some points as soon as two of them have different `x`, and any
other line is farther from the points: the sum of squared residuals of a line is the smallest one plus a
square for the difference in slope and one for the difference in height over the mean of the `x`. The
coefficient of determination lies between 0 and 1, since the level line through the mean is among the
competitors.
-/

namespace SignalDesk.Stats

/-- The sum of squared distances of points from a line, along `y`. -/
def residuals (points : List (ℚ × ℚ)) (slope intercept : ℚ) : ℚ :=
  (points.map fun p => (p.2 - (intercept + slope * p.1)) ^ 2).sum

/-- The line through the means whose slope is the comoment of `x` and `y` over that of `x`. -/
def meanLine (points : List (ℚ × ℚ)) : LinearFit ℚ :=
  let slope := comoment points Prod.fst Prod.snd / comoment points Prod.fst Prod.fst
  let intercept := mean points Prod.snd - slope * mean points Prod.fst
  ⟨slope, intercept,
    if comoment points Prod.snd Prod.snd = 0 then 0
    else 1 - residuals points slope intercept / comoment points Prod.snd Prod.snd⟩

variable (points : List (ℚ × ℚ))

private theorem linearFit_eq : linearFit points =
    if points.length < 2 ∨ comoment points Prod.fst Prod.fst = 0 then none
    else some (meanLine points) := by
  have hproducts : deviationSum points (mean points Prod.fst) (mean points Prod.snd) =
      comoment points Prod.fst Prod.snd := by
    rw [← deviationSum_eq, show (points.map fun p => (p.1, p.2)) = points from List.map_id points]
  by_cases hfew : points.length < 2
  · simp [linearFit, hfew]
  · simp only [linearFit, hfew, sum_div_length, deviationSum_eq, hproducts, isZero_iff, false_or,
      if_false]
    simp only [sum_eq, ← sq]
    rfl

private theorem residuals_nonneg (slope intercept : ℚ) : 0 ≤ residuals points slope intercept :=
  sum_sq_nonneg points _

private theorem residuals_eq_zero_iff (slope intercept : ℚ) :
    residuals points slope intercept = 0 ↔ ∀ p ∈ points, p.2 = intercept + slope * p.1 := by
  simp only [residuals, sum_sq_eq_zero_iff, sub_eq_zero]

variable {points}

/-- A line is as far from the points as its slope demands, and farther by its height over the means. -/
theorem residuals_eq (h : points ≠ []) (slope intercept : ℚ) :
    residuals points slope intercept =
      comoment points Prod.snd Prod.snd - 2 * slope * comoment points Prod.fst Prod.snd +
        slope ^ 2 * comoment points Prod.fst Prod.fst +
        points.length * (mean points Prod.snd - (intercept + slope * mean points Prod.fst)) ^ 2 := by
  let deviation (p : ℚ × ℚ) : ℚ :=
    p.2 - mean points Prod.snd + -slope * (p.1 - mean points Prod.fst)
  have hsum : (points.map deviation).sum = 0 := by
    simp only [deviation, List.sum_map_add, List.sum_map_mul_left, sum_sub_mean _ h, mul_zero, add_zero]
  have hresidual (p : ℚ × ℚ) : p.2 - (intercept + slope * p.1) =
      deviation p + (mean points Prod.snd - (intercept + slope * mean points Prod.fst)) := by
    simp only [deviation]
    ring
  have hsquare (p : ℚ × ℚ) : deviation p ^ 2 =
      (p.2 - mean points Prod.snd) * (p.2 - mean points Prod.snd) +
        -(2 * slope) * ((p.1 - mean points Prod.fst) * (p.2 - mean points Prod.snd)) +
        slope ^ 2 * ((p.1 - mean points Prod.fst) * (p.1 - mean points Prod.fst)) := by
    simp only [deviation]
    ring
  simp only [residuals, hresidual, sum_sq_add points deviation hsum, hsquare, List.sum_map_add,
    List.sum_map_mul_left]
  simp only [comoment]
  ring

section

variable (hspread : comoment points Prod.fst Prod.fst ≠ 0)

include hspread

private theorem ne_nil_of_spread : points ≠ [] := by
  rintro rfl
  exact hspread rfl

/-- Completing the square: what a line loses against the line through the means. -/
theorem residuals_eq_add (slope intercept : ℚ) :
    residuals points slope intercept =
      residuals points (meanLine points).slope (meanLine points).intercept +
        comoment points Prod.fst Prod.fst * (slope - (meanLine points).slope) ^ 2 +
        points.length * (mean points Prod.snd - (intercept + slope * mean points Prod.fst)) ^ 2 := by
  have hslope : (meanLine points).slope * comoment points Prod.fst Prod.fst =
      comoment points Prod.fst Prod.snd := div_mul_cancel₀ _ hspread
  have hheight : (meanLine points).intercept + (meanLine points).slope * mean points Prod.fst =
      mean points Prod.snd := sub_add_cancel _ _
  rw [residuals_eq (ne_nil_of_spread hspread), residuals_eq (ne_nil_of_spread hspread), hheight, ← hslope]
  ring

/-- Every other line is farther from the points. -/
theorem residuals_meanLine_lt {slope intercept : ℚ}
    (hother : (slope, intercept) ≠ ((meanLine points).slope, (meanLine points).intercept)) :
    residuals points (meanLine points).slope (meanLine points).intercept <
      residuals points slope intercept := by
  have hpositive := (comoment_self_nonneg points Prod.fst).lt_of_ne' hspread
  have hlength : (0 : ℚ) < points.length := by
    exact_mod_cast List.length_pos_iff.2 (ne_nil_of_spread hspread)
  rw [residuals_eq_add hspread slope intercept, add_assoc, lt_add_iff_pos_right]
  by_cases hslope : slope = (meanLine points).slope
  · -- a line of the same slope runs above or below the means
    have hheight : mean points Prod.snd - (intercept + slope * mean points Prod.fst) =
        (meanLine points).intercept - intercept := by
      rw [hslope]
      simp only [meanLine]
      ring
    have hne : (meanLine points).intercept - intercept ≠ 0 := by
      intro hzero
      exact hother (Prod.ext hslope (sub_eq_zero.1 hzero).symm)
    rw [hheight, hslope, sub_self]
    positivity
  · have hne : slope - (meanLine points).slope ≠ 0 := sub_ne_zero.2 hslope
    positivity

private theorem residuals_meanLine_le (slope intercept : ℚ) :
    residuals points (meanLine points).slope (meanLine points).intercept ≤
      residuals points slope intercept := by
  by_cases hsame : (slope, intercept) = ((meanLine points).slope, (meanLine points).intercept)
  · rw [Prod.mk.injEq] at hsame
    rw [hsame.1, hsame.2]
  · exact (residuals_meanLine_lt hspread hsame).le

private theorem residuals_meanLine_le_comoment :
    residuals points (meanLine points).slope (meanLine points).intercept ≤
      comoment points Prod.snd Prod.snd := by
  have hlevel : residuals points 0 (mean points Prod.snd) = comoment points Prod.snd Prod.snd := by
    rw [residuals_eq (ne_nil_of_spread hspread)]
    ring
  rw [← hlevel]
  exact residuals_meanLine_le hspread 0 _

private theorem rSquared_nonneg : 0 ≤ (meanLine points).rSquared := by
  simp only [meanLine]
  split
  · exact le_rfl
  · rename_i hvaried
    have hpositive := (comoment_self_nonneg points Prod.snd).lt_of_ne' hvaried
    rw [sub_nonneg, div_le_one hpositive]
    exact residuals_meanLine_le_comoment hspread

end

variable (points) in
private theorem rSquared_le_one : (meanLine points).rSquared ≤ 1 := by
  simp only [meanLine]
  split
  · exact zero_le_one
  · rw [sub_le_self_iff]
    exact div_nonneg (residuals_nonneg _ _ _) (comoment_self_nonneg _ _)

private theorem rSquared_of_constant (h : ∀ p ∈ points, ∀ q ∈ points, p.2 = q.2) :
    (meanLine points).rSquared = 0 := by
  have hzero := (comoment_self_eq_zero_iff points Prod.snd).2 h
  simp only [meanLine, hzero, if_true]

private theorem rSquared_eq_one_iff : (meanLine points).rSquared = 1 ↔
    (∀ p ∈ points, p.2 = (meanLine points).intercept + (meanLine points).slope * p.1) ∧
      ∃ p ∈ points, ∃ q ∈ points, p.2 ≠ q.2 := by
  have hvaried : (∃ p ∈ points, ∃ q ∈ points, p.2 ≠ q.2) ↔ comoment points Prod.snd Prod.snd ≠ 0 := by
    rw [Ne, comoment_self_eq_zero_iff]
    push Not
    rfl
  rw [hvaried, ← residuals_eq_zero_iff]
  simp only [meanLine]
  split
  · simp_all
  · rename_i h
    simp [h, sub_eq_self]

/-- Points whose `x` is measured from another origin. -/
def shift (c : ℚ) (points : List (ℚ × ℚ)) : List (ℚ × ℚ) := points.map fun p => (p.1 + c, p.2)

def LinearFit.shift (c : ℚ) (fit : LinearFit ℚ) : LinearFit ℚ :=
  { fit with intercept := fit.intercept - fit.slope * c }

private theorem length_shift (c : ℚ) (points : List (ℚ × ℚ)) :
    (shift c points).length = points.length :=
  List.length_map _

private theorem mean_shift (c : ℚ) (h : points ≠ []) :
    mean (shift c points) Prod.fst = mean points Prod.fst + c ∧
      mean (shift c points) Prod.snd = mean points Prod.snd := by
  rw [← mean_add_const Prod.fst h c]
  simp only [mean, shift, List.map_map, List.length_map, Function.comp_def, and_self]

private theorem residuals_shift (c : ℚ) (points : List (ℚ × ℚ)) (slope intercept : ℚ) :
    residuals (shift c points) slope (intercept - slope * c) = residuals points slope intercept := by
  have hresidual (p : ℚ × ℚ) : p.2 - (intercept - slope * c + slope * (p.1 + c)) =
      p.2 - (intercept + slope * p.1) := by ring
  simp only [residuals, shift, List.map_map, Function.comp_def, hresidual]

private theorem comoment_shift (c : ℚ) (h : points ≠ []) :
    comoment (shift c points) Prod.fst Prod.fst = comoment points Prod.fst Prod.fst ∧
      comoment (shift c points) Prod.fst Prod.snd = comoment points Prod.fst Prod.snd ∧
      comoment (shift c points) Prod.snd Prod.snd = comoment points Prod.snd Prod.snd := by
  obtain ⟨hfst, hsnd⟩ := mean_shift c h
  simp only [comoment, hfst, hsnd]
  simp only [shift, List.map_map, Function.comp_def, add_sub_add_right_eq_sub, and_self]

private theorem meanLine_shift (c : ℚ) (h : points ≠ []) :
    meanLine (shift c points) = (meanLine points).shift c := by
  obtain ⟨hfst, hsnd⟩ := mean_shift c h
  obtain ⟨hxx, hxy, hyy⟩ := comoment_shift c h
  have hintercept (slope : ℚ) : mean points Prod.snd - slope * (mean points Prod.fst + c) =
      mean points Prod.snd - slope * mean points Prod.fst - slope * c := by ring
  simp only [meanLine, LinearFit.shift, hfst, hsnd, hxx, hxy, hyy, hintercept, residuals_shift]

/-- Moving the origin moves the line with the points. -/
theorem linearFit_shift (c : ℚ) (points : List (ℚ × ℚ)) :
    linearFit (shift c points) = (linearFit points).map (LinearFit.shift c) := by
  rw [linearFit_eq, linearFit_eq, length_shift]
  by_cases hfew : points.length < 2
  · simp [hfew]
  · have hpoints : points ≠ [] := by
      rintro rfl
      exact hfew Nat.two_pos
    rw [(comoment_shift c hpoints).1, meanLine_shift c hpoints]
    split <;> rfl

theorem linearFit_eq_none_iff : linearFit points = none ↔
    points.length < 2 ∨ ∀ p ∈ points, ∀ q ∈ points, p.1 = q.1 := by
  rw [linearFit_eq, ← comoment_self_eq_zero_iff points Prod.fst]
  split
  · exact iff_of_true rfl ‹_›
  · exact iff_of_false nofun ‹_›

/-- What a line is for some points: nearer than every other line, and determined to the degree to which
the points vary along it. -/
structure IsBestFit (points : List (ℚ × ℚ)) (fit : LinearFit ℚ) : Prop where
  best : ∀ slope intercept, (slope, intercept) ≠ (fit.slope, fit.intercept) →
    residuals points fit.slope fit.intercept < residuals points slope intercept
  nonneg : 0 ≤ fit.rSquared
  le_one : fit.rSquared ≤ 1
  eq_one_iff : fit.rSquared = 1 ↔
    (∀ p ∈ points, p.2 = fit.intercept + fit.slope * p.1) ∧ ∃ p ∈ points, ∃ q ∈ points, p.2 ≠ q.2
  of_constant : (∀ p ∈ points, ∀ q ∈ points, p.2 = q.2) → fit.rSquared = 0

theorem isBestFit_of_linearFit {fit : LinearFit ℚ} (h : linearFit points = some fit) :
    IsBestFit points fit := by
  rw [linearFit_eq] at h
  split at h
  · cases h
  · rename_i hdefined
    have hspread : comoment points Prod.fst Prod.fst ≠ 0 := fun hzero => hdefined (.inr hzero)
    obtain rfl := Option.some.inj h
    exact {
      best := fun _ _ => residuals_meanLine_lt hspread
      nonneg := rSquared_nonneg hspread
      le_one := rSquared_le_one points
      eq_one_iff := rSquared_eq_one_iff
      of_constant := rSquared_of_constant }

end SignalDesk.Stats
