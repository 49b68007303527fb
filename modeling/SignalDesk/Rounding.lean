/-!
# Rounding a quotient

Sums of money and printed floats round to the nearest integer, a half going to the even one. Amounts
that are read round a half up.
-/

namespace SignalDesk

/-- The integer nearest to `n / d`; halfway between two, the even one. -/
def roundHalfEven (n d : Nat) : Nat :=
  if 2 * (n % d) < d then n / d
  else if d < 2 * (n % d) then n / d + 1
  else n / d + n / d % 2

/-- The integer nearest to `n / d`; halfway between two, the larger one. -/
def roundHalfUp (n d : Nat) : Nat := (2 * n + d) / (2 * d)

theorem roundHalfEven_of_dvd {n d : Nat} (hd : 0 < d) (h : d ∣ n) : roundHalfEven n d = n / d := by
  simp [roundHalfEven, Nat.mod_eq_zero_of_dvd h, hd]

theorem le_roundHalfEven (n d : Nat) : n / d ≤ roundHalfEven n d := by
  unfold roundHalfEven
  split
  · exact Nat.le_refl _
  · split <;> omega

theorem roundHalfEven_le (n d : Nat) : roundHalfEven n d ≤ n / d + 1 := by
  unfold roundHalfEven
  split
  · omega
  · split <;> omega

end SignalDesk
