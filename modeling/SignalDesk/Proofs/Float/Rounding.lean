import SignalDesk.Proofs.Float.Value

/-!
# Rounding

A result is cut to 53 bits, or to the smallest exponent, and its last bit is rounded. What is lost is
less than one unit in the last place, a bound that needs no case distinction on how ties are broken.
-/

namespace SignalDesk.FloatValue

open Float.Model (UnpackedFloat Format totalExponent)
open Float.Model.UnpackedFloat (Sign Accuracy ExtendedMantissa)

theorem mantissa_shiftRight (em : ExtendedMantissa) (k : ℕ) :
    (em >>> k).mantissa = em.mantissa / 2 ^ k := by
  show (Nat.repeat ExtendedMantissa.shiftRightOne k em).mantissa = _
  induction k with
  | zero => simp [Nat.repeat]
  | succ k ih =>
    show (Nat.repeat ExtendedMantissa.shiftRightOne k em).mantissa / 2 = _
    rw [ih, Nat.div_div_eq_div_mul, pow_succ]

private theorem mantissa_of_accuracy (m : ℕ) (accuracy : Accuracy) :
    (ExtendedMantissa.ofMantissaAndAccuracy m accuracy).mantissa = m := by
  cases accuracy with
  | exact => rfl
  | inexact half => cases half <;> rfl

private theorem roundedMantissa_bounds (em : ExtendedMantissa) :
    em.mantissa ≤ em.roundedMantissa ∧ em.roundedMantissa ≤ em.mantissa + 1 := by
  unfold ExtendedMantissa.roundedMantissa
  cases em.accuracy with
  | exact => simp [Accuracy.roundToNearestEven]
  | inexact half =>
    cases half with
    | lt => simp [Accuracy.roundToNearestEven]
    | eq => simp only [Accuracy.roundToNearestEven]; omega
    | gt => simp [Accuracy.roundToNearestEven]

/-- A mantissa of which `k` bits are cut off, the last bit that is left being rounded. -/
def cut (m k : ℕ) (accuracy : Accuracy) : ℕ :=
  (ExtendedMantissa.ofMantissaAndAccuracy m accuracy >>> k).roundedMantissa

theorem cut_bounds (m k : ℕ) (accuracy : Accuracy) :
    m / 2 ^ k ≤ cut m k accuracy ∧ cut m k accuracy ≤ m / 2 ^ k + 1 := by
  have h := roundedMantissa_bounds (ExtendedMantissa.ofMantissaAndAccuracy m accuracy >>> k)
  rwa [mantissa_shiftRight, mantissa_of_accuracy] at h

private theorem shiftRight_mul_two_pow (m k : ℕ) :
    (⟨m * 2 ^ k, false, false⟩ : ExtendedMantissa) >>> k = ⟨m, false, false⟩ := by
  show Nat.repeat ExtendedMantissa.shiftRightOne k ⟨m * 2 ^ k, false, false⟩ = _
  induction k generalizing m with
  | zero => simp [Nat.repeat]
  | succ k ih =>
    have hdouble : m * 2 ^ (k + 1) = 2 * m * 2 ^ k := by rw [pow_succ]; ring
    show ExtendedMantissa.shiftRightOne (Nat.repeat ExtendedMantissa.shiftRightOne k _) = _
    rw [hdouble, ih]
    simp [ExtendedMantissa.shiftRightOne]

theorem cut_mul_two_pow (m k : ℕ) : cut (m * 2 ^ k) k .exact = m := by
  unfold cut
  simp only [ExtendedMantissa.ofMantissaAndAccuracy]
  rw [shiftRight_mul_two_pow]
  rfl

/-- The exponent to which a mantissa is cut. -/
def target (m : ℕ) (e : ℤ) : ℤ := max (m.log2 + 1 + e - 53) (-1074)

theorem targetExponent_eq (m : ℕ) (e : ℤ) :
    Format.binary64.targetExponent (totalExponent m e) = target m e := rfl

private theorem lt_two_pow_of_target {m k : ℕ} {e : ℤ} (h : target m e = e + k) :
    m < 2 ^ (53 + k) := by
  have hlog : m.log2 + 1 ≤ 53 + k := by
    have : m.log2 + 1 + e - 53 ≤ target m e := le_max_left _ _
    omega
  exact Nat.lt_log2_self.trans_le (Nat.pow_le_pow_right two_pos hlog)

theorem two_pow_le_of_target {m k : ℕ} {e : ℤ} (h : target m e = e + k)
    (hnormal : target m e ≠ -1074) : 2 ^ (52 + k) ≤ m := by
  have hlog : m.log2 = 52 + k := by
    have : target m e = m.log2 + 1 + e - 53 := by
      unfold target at hnormal ⊢
      omega
    omega
  have hm : m ≠ 0 := by
    rintro rfl
    rw [Nat.log2_zero] at hlog
    omega
  rw [← hlog]
  exact Nat.log2_self_le hm

private theorem two_zpow_target_le {m k : ℕ} {e : ℤ} (hk : target m e = e + k) :
    (2 : ℚ) ^ target m e ≤ 2 ^ (-52 : ℤ) * magnitude m e + 2 ^ (-1074 : ℤ) := by
  have hmag := magnitude_nonneg m e
  by_cases hnormal : target m e = -1074
  · rw [hnormal]
    have : 0 ≤ (2 : ℚ) ^ (-52 : ℤ) * magnitude m e := by positivity
    linarith
  · have hm : (2 : ℚ) ^ (52 + k) ≤ m := by exact_mod_cast two_pow_le_of_target hk hnormal
    have hcut : (2 : ℚ) ^ target m e ≤ 2 ^ (-52 : ℤ) * magnitude m e :=
      calc (2 : ℚ) ^ target m e = 2 ^ (-52 : ℤ) * (2 ^ (52 + k) * 2 ^ e) := by
            rw [hk, ← zpow_natCast, ← zpow_add₀ two_ne_zero, ← zpow_add₀ two_ne_zero]
            congr 1
            push_cast
            ring
        _ ≤ 2 ^ (-52 : ℤ) * magnitude m e := by
            unfold magnitude
            gcongr
    have : (0 : ℚ) < 2 ^ (-1074 : ℤ) := by positivity
    linarith

theorem target_of_lt {m : ℕ} {e : ℤ} (hm : m < 2 ^ 53) (he : -1074 ≤ e) : target m e ≤ e := by
  have hlog : m.log2 ≤ 52 := by
    by_cases h : m = 0
    · simp [h]
    · exact Nat.lt_succ_iff.1 ((Nat.log2_lt h).2 hm)
  unfold target
  omega

/-- The mantissa and the exponent after both cuts of a rounding. -/
def settled (m : ℕ) (e : ℤ) : ℕ × ℤ := if m = 2 ^ 53 then (2 ^ 52, e + 1) else (m, e)

theorem magnitude_settled (m : ℕ) (e : ℤ) :
    magnitude (settled m e).1 (settled m e).2 = magnitude m e := by
  unfold settled
  by_cases h : m = 2 ^ 53
  · rw [if_pos h, h]
    unfold magnitude
    rw [zpow_add_one₀ two_ne_zero]
    push_cast
    ring
  · rw [if_neg h]

theorem settled_lt {m : ℕ} (hm : m ≤ 2 ^ 53) (e : ℤ) : (settled m e).1 < 2 ^ 53 := by
  unfold settled
  by_cases h : m = 2 ^ 53
  · rw [if_pos h]
    norm_num
  · rw [if_neg h]
    exact lt_of_le_of_ne hm h

/-- A finite float, or a zero with the same sign. -/
def ofMantissa (s : Sign) (m : ℕ) (e : ℤ) : UnpackedFloat :=
  if h : m = 0 then .zero s else .finite s m e (Nat.pos_of_ne_zero h)

/-- A rounding cuts a mantissa twice, the second time only if the carry made it too long. -/
theorem roundWithAccuracy_eq (s : Sign) {m k : ℕ} {e : ℤ} (hk : target m e = e + k)
    (accuracy : Accuracy) :
    let k' := (target (cut m k accuracy) (target m e) - target m e).toNat
    UnpackedFloat.roundWithAccuracy .binary64 s m e accuracy =
      ofMantissa s (cut m k accuracy / 2 ^ k') (target m e + k') := by
  have hshift : (target m e - e).toNat = k := by omega
  simp only [UnpackedFloat.roundWithAccuracy, UnpackedFloat.shiftToTargetExponent,
    UnpackedFloat.shiftToExponent, targetExponent_eq, mantissa_shiftRight, mantissa_of_accuracy,
    hshift, ← hk]
  rfl

private theorem settled_of_le {r : ℕ} {e : ℤ} (hr : r ≤ 2 ^ 53) (he : -1074 ≤ e) :
    let k := (target r e - e).toNat
    (r / 2 ^ k, e + (k : ℤ)) = settled r e := by
  intro k
  unfold settled
  by_cases h : r = 2 ^ 53
  · have hk : k = 1 := by
      show (target r e - e).toNat = 1
      have hlog : r.log2 = 53 := by rw [h, Nat.log2_two_pow]
      unfold target
      omega
    rw [if_pos h, hk, h]
    rfl
  · have hk : k = 0 := by
      have := target_of_lt (lt_of_le_of_ne hr h) he
      show (target r e - e).toNat = 0
      omega
    rw [if_neg h, hk]
    simp

theorem target_ge (m : ℕ) (e : ℤ) : -1074 ≤ target m e := le_max_right _ _

theorem cut_le {m k : ℕ} {e : ℤ} (hk : target m e = e + k) (accuracy : Accuracy) :
    cut m k accuracy ≤ 2 ^ 53 := by
  have hcut : m / 2 ^ k < 2 ^ 53 := by
    apply Nat.div_lt_of_lt_mul
    rw [← pow_add, add_comm]
    exact lt_two_pow_of_target hk
  have := (cut_bounds m k accuracy).2
  omega

/-- A mantissa is cut to an integer next to it and its carry is passed on to the exponent. -/
theorem roundWithAccuracy_settled (s : Sign) {m k : ℕ} {e : ℤ} (hk : target m e = e + k)
    (accuracy : Accuracy) :
    UnpackedFloat.roundWithAccuracy .binary64 s m e accuracy =
      ofMantissa s (settled (cut m k accuracy) (target m e)).1
        (settled (cut m k accuracy) (target m e)).2 := by
  rw [roundWithAccuracy_eq s hk accuracy, ← settled_of_le (cut_le hk accuracy) (target_ge m e)]

private theorem cut_near {m k : ℕ} {e : ℤ} {v : ℚ} (hk : target m e = e + k) (hge : magnitude m e ≤ v)
    (hlt : v < magnitude (m + 1) e) (accuracy : Accuracy) :
    |magnitude (cut m k accuracy) (target m e) - v| ≤ 2 ^ target m e := by
  obtain ⟨hlow, hhigh⟩ := cut_bounds m k accuracy
  have hunit : (2 : ℚ) ^ target m e = 2 ^ k * 2 ^ e := by
    rw [hk, zpow_add₀ two_ne_zero, zpow_natCast, mul_comm]
  have hpos : (0 : ℚ) < 2 ^ e := by positivity
  have hfloor : ((m / 2 ^ k : ℕ) : ℚ) * 2 ^ k ≤ m := by
    exact_mod_cast Nat.div_mul_le_self m (2 ^ k)
  have hceil : (m + 1 : ℚ) ≤ ((m / 2 ^ k : ℕ) + 1) * 2 ^ k := by
    exact_mod_cast Nat.lt_mul_of_div_lt (Nat.lt_succ_self _) (by positivity)
  have hlow : ((m / 2 ^ k : ℕ) : ℚ) ≤ cut m k accuracy := by exact_mod_cast hlow
  have hhigh : (cut m k accuracy : ℚ) ≤ (m / 2 ^ k : ℕ) + 1 := by exact_mod_cast hhigh
  unfold magnitude at hge hlt ⊢
  push_cast at hlt
  rw [hunit]
  generalize ((m / 2 ^ k : ℕ) : ℚ) = q at hfloor hceil hlow hhigh
  generalize (cut m k accuracy : ℚ) = r at hlow hhigh
  have hfloor : q * (2 ^ k * 2 ^ e) ≤ v := by
    calc q * (2 ^ k * 2 ^ e) = q * 2 ^ k * 2 ^ e := by ring
      _ ≤ m * 2 ^ e := by gcongr
      _ ≤ v := hge
  have hceil : v ≤ (q + 1) * (2 ^ k * 2 ^ e) := by
    calc v ≤ (m + 1) * 2 ^ e := hlt.le
      _ ≤ (q + 1) * 2 ^ k * 2 ^ e := by gcongr
      _ = (q + 1) * (2 ^ k * 2 ^ e) := by ring
  have hunit : (0 : ℚ) < 2 ^ k * 2 ^ e := by positivity
  generalize (2 : ℚ) ^ k * 2 ^ e = unit at hfloor hceil hunit
  have hdown : q * unit ≤ r * unit := by gcongr
  have hup : r * unit ≤ (q + 1) * unit := by gcongr
  rw [abs_le]
  constructor <;> linarith

def largest : ℚ := magnitude (2 ^ 53 - 1) 971

private theorem two_zpow_1024 : (2 : ℚ) ^ (1024 : ℤ) = 2 ^ 53 * 2 ^ (971 : ℤ) := by
  rw [← zpow_natCast, ← zpow_add₀ two_ne_zero]
  rfl

theorem magnitude_lt_of_exponent_lt {r : ℕ} {t : ℤ} (hr : r ≤ 2 ^ 53) (ht : t < 971) :
    magnitude r t < 2 ^ (1024 : ℤ) := by
  have hr : (r : ℚ) ≤ 2 ^ 53 := by exact_mod_cast hr
  have hpower : (2 : ℚ) ^ t < 2 ^ (971 : ℤ) := zpow_lt_zpow_right₀ one_lt_two ht
  have hpos : (0 : ℚ) < 2 ^ t := by positivity
  rw [two_zpow_1024]
  calc magnitude r t ≤ 2 ^ 53 * 2 ^ t := mul_le_mul_of_nonneg_right hr hpos.le
    _ < 2 ^ 53 * 2 ^ (971 : ℤ) := mul_lt_mul_of_pos_left hpower (by norm_num)

theorem magnitude_lt_of_mantissa_lt {r : ℕ} (hr : r < 2 ^ 53) :
    magnitude r 971 < 2 ^ (1024 : ℤ) := by
  have hr : (r : ℚ) < 2 ^ 53 := by exact_mod_cast hr
  rw [two_zpow_1024]
  exact mul_lt_mul_of_pos_right hr (zpow_pos two_pos _)

theorem largest_eq : largest = (2 - 2 ^ (-52 : ℤ)) * 2 ^ (1023 : ℤ) := by
  have hpower : (2 : ℚ) ^ (1023 : ℤ) = 2 ^ 52 * 2 ^ (971 : ℤ) := by
    rw [← zpow_natCast, ← zpow_add₀ two_ne_zero]
    rfl
  unfold largest magnitude
  rw [hpower, ← mul_assoc]
  norm_num

theorem Canonical.magnitude_le {m : ℕ} {e : ℤ} (h : Canonical m e) : magnitude m e ≤ largest := by
  have hm : m ≤ 2 ^ 53 - 1 := Nat.le_sub_one_of_lt h.mantissa_lt
  have hpower : (2 : ℚ) ^ e ≤ 2 ^ (971 : ℤ) := zpow_le_zpow_right₀ one_le_two h.exponent_le
  unfold largest magnitude
  exact mul_le_mul (by exact_mod_cast hm) hpower (zpow_nonneg two_pos.le _) (Nat.cast_nonneg _)

theorem largest_lt : largest < 2 ^ (1024 : ℤ) :=
  magnitude_lt_of_mantissa_lt (by norm_num)

private theorem target_le_of_lt {m k : ℕ} {e : ℤ} (hk : target m e = e + k)
    (hlt : magnitude m e < 2 ^ (1024 : ℤ)) : target m e ≤ 971 := by
  by_contra hhuge
  have hm : (2 : ℚ) ^ (52 + k) ≤ m := by
    exact_mod_cast two_pow_le_of_target hk (by omega)
  have hpower : (2 : ℚ) ^ (1024 : ℤ) ≤ 2 ^ (52 + target m e) :=
    zpow_le_zpow_right₀ one_le_two (by omega)
  apply hlt.not_ge
  calc (2 : ℚ) ^ (1024 : ℤ) ≤ 2 ^ (52 + target m e) := hpower
    _ = 2 ^ (52 + k) * 2 ^ e := by
      rw [hk, ← zpow_natCast, ← zpow_add₀ two_ne_zero]
      congr 1
      push_cast
      ring
    _ ≤ magnitude m e := mul_le_mul_of_nonneg_right hm (zpow_nonneg two_pos.le _)

private theorem cut_exact_lt {m k : ℕ} {e : ℤ} (hk : target m e = e + k)
    (hle : magnitude m e ≤ largest) : magnitude (cut m k .exact) (target m e) < 2 ^ (1024 : ℤ) := by
  rcases (target_le_of_lt hk (hle.trans_lt largest_lt)).lt_or_eq with hsmall | hlast
  · exact magnitude_lt_of_exponent_lt (cut_le hk .exact) hsmall
  · have hbound : m ≤ (2 ^ 53 - 1) * 2 ^ k := by
      have hpower : (2 : ℚ) ^ (971 : ℤ) = 2 ^ k * 2 ^ e := by
        rw [← hlast, hk, zpow_add₀ two_ne_zero, zpow_natCast, mul_comm]
      unfold largest magnitude at hle
      rw [hpower, ← mul_assoc] at hle
      exact_mod_cast le_of_mul_le_mul_right hle (zpow_pos two_pos _)
    rw [hlast]
    apply magnitude_lt_of_mantissa_lt
    rcases hbound.lt_or_eq with hlt | rfl
    · have hfloor : m / 2 ^ k < 2 ^ 53 - 1 := (Nat.div_lt_iff_lt_mul (by positivity)).2 hlt
      have := (cut_bounds m k .exact).2
      omega
    · rw [cut_mul_two_pow]
      norm_num

/-- What one rounding of `v` can lose. -/
def roundoff (v : ℚ) : ℚ := 2 ^ (-52 : ℤ) * |v| + 2 ^ (-1074 : ℤ)

private theorem signed_sub (s : Sign) (a b : ℚ) : signed s a - signed s b = signed s (a - b) := by
  cases s
  · show -a - -b = -(a - b)
    ring
  · rfl

theorem abs_signed (s : Sign) (q : ℚ) : |signed s q| = |q| := by
  cases s
  · exact abs_neg q
  · rfl

private theorem roundoff_signed (s : Sign) (v : ℚ) : roundoff (signed s v) = roundoff v := by
  unfold roundoff
  rw [abs_signed]

private theorem two_zpow_target_le_roundoff {m k : ℕ} {e : ℤ} {v : ℚ} (hk : target m e = e + k)
    (hge : magnitude m e ≤ v) : (2 : ℚ) ^ target m e ≤ roundoff v := by
  unfold roundoff
  rw [abs_of_nonneg ((magnitude_nonneg m e).trans hge)]
  apply (two_zpow_target_le hk).trans
  gcongr

theorem roundoff_nonneg (v : ℚ) : 0 ≤ roundoff v := by
  unfold roundoff
  positivity

private theorem add_roundoff_lt {v : ℚ} (hnonneg : 0 ≤ v) (hv : v ≤ 2 ^ (1023 : ℤ)) :
    v + roundoff v < 2 ^ (1024 : ℤ) := by
  have hsplit : (2 : ℚ) ^ (1024 : ℤ) = 2 * 2 ^ (1023 : ℤ) := by
    rw [← zpow_one_add₀ two_ne_zero]
    rfl
  have hsmall : (2 : ℚ) ^ (-1074 : ℤ) ≤ 2 ^ (0 : ℤ) := zpow_le_zpow_right₀ one_le_two (by norm_num)
  have hlarge : (2 : ℚ) ^ (1 : ℤ) ≤ 2 ^ (1023 : ℤ) := zpow_le_zpow_right₀ one_le_two (by norm_num)
  unfold roundoff
  rw [abs_of_nonneg hnonneg, hsplit]
  generalize (2 : ℚ) ^ (1023 : ℤ) = large at hv hlarge
  generalize (2 : ℚ) ^ (-1074 : ℤ) = small at hsmall
  norm_num at hsmall hlarge ⊢
  linarith

/-- An unpacked float that is a rounding of `v`. -/
structure Rounded (u : UnpackedFloat) (v : ℚ) : Prop where
  regular : Regular u
  near : |ofUnpacked u - v| ≤ roundoff v

theorem canonical_settled {m k : ℕ} {e : ℤ} (hk : target m e = e + k) (accuracy : Accuracy)
    (hlt : magnitude (cut m k accuracy) (target m e) < 2 ^ (1024 : ℤ)) :
    Canonical (settled (cut m k accuracy) (target m e)).1
      (settled (cut m k accuracy) (target m e)).2 := by
  have hlow := (cut_bounds m k accuracy).1
  have hr := cut_le hk accuracy
  generalize cut m k accuracy = r at hlow hr hlt
  have hge := target_ge m e
  have hshort := settled_lt hr (target m e)
  have hnormal : 2 ^ 52 ≤ (settled r (target m e)).1 ∨ (settled r (target m e)).2 = -1074 := by
    unfold settled
    by_cases h : r = 2 ^ 53
    · rw [if_pos h]
      exact .inl le_rfl
    · rw [if_neg h]
      by_cases hsmall : target m e = -1074
      · exact .inr hsmall
      · left
        apply le_trans _ hlow
        rw [Nat.le_div_iff_mul_le (by positivity), ← pow_add]
        exact two_pow_le_of_target hk hsmall
  have hexponent : -1074 ≤ (settled r (target m e)).2 := by
    unfold settled
    split <;> omega
  refine ⟨hshort, hexponent, ?_, hnormal⟩
  by_contra hhuge
  have hlong : (2 : ℚ) ^ 52 ≤ (settled r (target m e)).1 := by
    exact_mod_cast hnormal.resolve_right (by omega)
  have hpower : (2 : ℚ) ^ (972 : ℤ) ≤ 2 ^ (settled r (target m e)).2 :=
    zpow_le_zpow_right₀ one_le_two (by omega)
  have hsplit : (2 : ℚ) ^ (1024 : ℤ) = 2 ^ 52 * 2 ^ (972 : ℤ) := by
    rw [← zpow_natCast, ← zpow_add₀ two_ne_zero]
    rfl
  rw [← magnitude_settled] at hlt
  apply hlt.not_ge
  rw [hsplit]
  exact mul_le_mul hlong hpower (zpow_nonneg two_pos.le _) (Nat.cast_nonneg _)

theorem ofUnpacked_ofMantissa (s : Sign) (m : ℕ) (e : ℤ) :
    ofUnpacked (ofMantissa s m e) = signed s (magnitude m e) := by
  unfold ofMantissa
  by_cases h : m = 0
  · rw [dif_pos h, h]
    cases s <;> simp [ofUnpacked, signed, magnitude]
  · rw [dif_neg h]
    rfl

theorem regular_ofMantissa (s : Sign) {m : ℕ} {e : ℤ} (h : Canonical m e) :
    Regular (ofMantissa s m e) := by
  unfold ofMantissa
  by_cases hm : m = 0
  · rw [dif_pos hm]
    trivial
  · rw [dif_neg hm]
    exact h

/-- The mantissa `m` stands for a number `v` of which a fraction has been cut off already. -/
theorem rounded_of_fits (s : Sign) {m k : ℕ} {e : ℤ} {v : ℚ} (hk : target m e = e + k)
    (hge : magnitude m e ≤ v) (hlt : v < magnitude (m + 1) e) (accuracy : Accuracy)
    (hfits : magnitude (cut m k accuracy) (target m e) < 2 ^ (1024 : ℤ)) :
    Rounded (UnpackedFloat.roundWithAccuracy .binary64 s m e accuracy) (signed s v) := by
  rw [roundWithAccuracy_settled s hk accuracy]
  constructor
  · exact regular_ofMantissa s (canonical_settled hk accuracy hfits)
  · rw [ofUnpacked_ofMantissa, magnitude_settled, signed_sub, abs_signed, roundoff_signed]
    apply (cut_near hk hge hlt accuracy).trans
    exact two_zpow_target_le_roundoff hk hge

theorem exists_shift {m : ℕ} {e : ℤ} (he : e ≤ target m e) : ∃ k : ℕ, target m e = e + k := by
  obtain ⟨k, hk⟩ := Int.eq_ofNat_of_zero_le (sub_nonneg.2 he)
  exact ⟨k, by omega⟩

theorem magnitude_lt_succ (m : ℕ) (e : ℤ) : magnitude m e < magnitude (m + 1) e := by
  unfold magnitude
  gcongr
  exact Nat.lt_succ_self m

theorem rounded_exact (s : Sign) {m : ℕ} {e : ℤ} (he : e ≤ target m e)
    (hv : magnitude m e ≤ largest) :
    Rounded (UnpackedFloat.roundWithAccuracy .binary64 s m e .exact) (signed s (magnitude m e)) := by
  obtain ⟨k, hk⟩ := exists_shift he
  apply rounded_of_fits s hk le_rfl (magnitude_lt_succ m e)
  exact cut_exact_lt hk hv

theorem rounded_inexact (s : Sign) {m : ℕ} {e : ℤ} {v : ℚ} (he : e ≤ target m e)
    (hge : magnitude m e ≤ v) (hlt : v < magnitude (m + 1) e) (hv : v ≤ 2 ^ (1023 : ℤ))
    (accuracy : Accuracy) :
    Rounded (UnpackedFloat.roundWithAccuracy .binary64 s m e accuracy) (signed s v) := by
  obtain ⟨k, hk⟩ := exists_shift he
  apply rounded_of_fits s hk hge hlt
  have hnear := (cut_near hk hge hlt accuracy).trans (two_zpow_target_le_roundoff hk hge)
  have hroom := add_roundoff_lt ((magnitude_nonneg m e).trans hge) hv
  have := le_of_abs_le hnear
  linarith

end SignalDesk.FloatValue
