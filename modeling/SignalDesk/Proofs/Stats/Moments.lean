import Mathlib
import SignalDesk.Stats

/-!
# Statistics in exact fractions

Read in fractions instead of floats, the sums of a statistic are the sums of lists. What a statistic
is made of are means and products of deviations from them: deviations add up to zero, and their squares
do so only if there are none.
-/

namespace SignalDesk

/-- Fractions, in which nothing is rounded and an empty sum has no sign. -/
instance : Quantity ℚ where
  ofNat n := n
  emptySum := 0
  isZero x := x == 0

namespace Stats

theorem sum_eq (terms : List ℚ) : sum terms = terms.sum := List.sum_eq_foldl.symm

theorem isZero_iff {x : ℚ} : Quantity.isZero x = true ↔ x = 0 := by
  show (x == 0) = true ↔ x = 0
  exact beq_iff_eq

section

variable {ι : Type} (l : List ι) (f g : ι → ℚ)

theorem sum_sq_nonneg : 0 ≤ (l.map fun x => f x ^ 2).sum := by
  refine List.sum_nonneg fun y hy => ?_
  obtain ⟨x, -, rfl⟩ := List.mem_map.1 hy
  exact sq_nonneg (f x)

theorem sum_sq_eq_zero_iff : (l.map fun x => f x ^ 2).sum = 0 ↔ ∀ x ∈ l, f x = 0 := by
  induction l with
  | nil => simp
  | cons x l ih =>
    rw [List.map_cons, List.sum_cons, List.forall_mem_cons, ← ih,
      add_eq_zero_iff_of_nonneg (sq_nonneg (f x)) (sum_sq_nonneg l f), sq_eq_zero_iff]

/-- Moving what adds up to zero by a number adds the square of that number for each term. -/
theorem sum_sq_add (h : (l.map f).sum = 0) (c : ℚ) :
    (l.map fun x => (f x + c) ^ 2).sum = (l.map fun x => f x ^ 2).sum + l.length * c ^ 2 := by
  have hsquare (x : ι) : (f x + c) ^ 2 = f x ^ 2 + 2 * c * f x + c ^ 2 := by ring
  simp only [hsquare, List.sum_map_add, List.sum_map_mul_left, h, List.map_const', List.sum_replicate,
    nsmul_eq_mul]
  ring

def mean : ℚ := (l.map f).sum / l.length

/-- The sum of products of the deviations of two quantities from their means. -/
def comoment : ℚ := (l.map fun x => (f x - mean l f) * (g x - mean l g)).sum

theorem sum_div_length : sum (l.map f) / Quantity.ofNat l.length = mean l f := by
  rw [sum_eq]
  rfl

theorem deviationSum_eq :
    deviationSum (l.map fun x => (f x, g x)) (mean l f) (mean l g) = comoment l f g := by
  rw [comoment, ← sum_eq, sum, List.foldl_map, deviationSum, List.foldl_map]
  rfl

variable {l}

private theorem length_mul_mean (h : l ≠ []) : l.length * mean l f = (l.map f).sum := by
  have hlength : (l.length : ℚ) ≠ 0 := by simpa using h
  rw [mean, mul_div_cancel₀ _ hlength]

theorem sum_sub_mean (h : l ≠ []) : (l.map fun x => f x - mean l f).sum = 0 := by
  simp only [sub_eq_add_neg, List.sum_map_add, List.map_const', List.sum_replicate, nsmul_eq_mul]
  rw [← length_mul_mean f h]
  ring

variable (l)

private theorem comoment_self : comoment l f f = (l.map fun x => (f x - mean l f) ^ 2).sum := by
  simp only [comoment, sq]

theorem comoment_self_nonneg : 0 ≤ comoment l f f := by
  rw [comoment_self]
  exact sum_sq_nonneg l _

/-- There are no deviations only if all values are equal. -/
theorem comoment_self_eq_zero_iff : comoment l f f = 0 ↔ ∀ x ∈ l, ∀ y ∈ l, f x = f y := by
  rw [comoment_self, sum_sq_eq_zero_iff]
  constructor
  · intro h x hx y hy
    rw [sub_eq_zero.1 (h x hx), sub_eq_zero.1 (h y hy)]
  · intro h x hx
    have hsum : (l.map f).sum = l.length * f x := by
      rw [List.map_congr_left fun y hy => h y hy x hx]
      simp
    have hlength : (l.length : ℚ) ≠ 0 := by simpa using List.ne_nil_of_mem hx
    rw [mean, hsum, mul_div_cancel_left₀ _ hlength, sub_self]

variable {l}

theorem mean_add_const (h : l ≠ []) (c : ℚ) : mean l (fun x => f x + c) = mean l f + c := by
  have hlength : (l.length : ℚ) ≠ 0 := by simpa using h
  simp only [mean, List.sum_map_add, List.map_const', List.sum_replicate, nsmul_eq_mul, add_div,
    mul_div_cancel_left₀ _ hlength]

theorem sum_sq_eq (h : l ≠ []) :
    (l.map fun x => f x ^ 2).sum = comoment l f f + l.length * mean l f ^ 2 := by
  rw [comoment_self, ← sum_sq_add l _ (sum_sub_mean f h)]
  simp only [sub_add_cancel]

end

end Stats

end SignalDesk
