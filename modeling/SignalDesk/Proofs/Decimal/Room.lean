import SignalDesk.Proofs.Decimal.Quotient

/-!
# Results that fit

Rounding makes room for every result whose integer part is less than the largest mantissa. So an
operation is given up only where the exact result is beyond that, or a divisor is zero.
-/

namespace SignalDesk.Decimal

private theorem ofMagnitude?_of_lt (negative : Bool) {m scale : Nat} (hm : m < mantissaBound)
    (hscale : scale ≤ maxScale) : ∃ r, ofMagnitude? negative m scale = some r := by
  rw [ofMagnitude?, ofSigned?, dif_pos ⟨hm, hscale⟩]
  exact ⟨_, rfl⟩

/-- Rounding makes room for everything below the largest mantissa. -/
theorem fit?_of_lt (negative : Bool) {n scale : Nat} (h : (n / 10 ^ scale : ℚ) < mantissaBound - 1) :
    ∃ r, fit? negative n scale = some r := by
  have hp : 0 < 10 ^ scale := by positivity
  have h : n < (mantissaBound - 1) * 10 ^ scale := by
    have hbound : ((mantissaBound - 1 : Nat) : ℚ) = mantissaBound - 1 := by
      rw [Nat.cast_sub (by decide), Nat.cast_one]
    rw [← hbound, div_lt_iff₀ (by positivity)] at h
    exact_mod_cast h
  have hfits : n / 10 ^ scale < mantissaBound := by
    refine (Nat.div_lt_iff_lt_mul hp).2 (h.trans_le ?_)
    exact Nat.mul_le_mul_right _ (Nat.sub_le _ _)
  have hdrop : Nat.max (excessDigits n) (scale - maxScale) ≤ scale :=
    Nat.max_le.2 ⟨excessDigits_le hfits, Nat.sub_le _ _⟩
  have hplaces : scale - maxScale ≤ Nat.max (excessDigits n) (scale - maxScale) :=
    Nat.le_max_right _ _
  have hlow : n / 10 ^ Nat.max (excessDigits n) (scale - maxScale) < mantissaBound := by
    refine (Nat.div_le_div_left ?_ (by positivity)).trans_lt (excessDigits_fits n)
    exact Nat.pow_le_pow_right (by decide) (Nat.le_max_left _ _)
  unfold fit?
  simp only [Nat.pow_eq]
  generalize Nat.max (excessDigits n) (scale - maxScale) = drop at hdrop hplaces hlow
  by_cases hrounded : roundHalfEven n (10 ^ drop) < mantissaBound
  · rw [if_pos hrounded, if_pos hdrop]
    exact ofMagnitude?_of_lt negative hrounded (by omega)
  · -- rounding up to the bound costs one more digit, and there is one
    have hup := roundHalfEven_le n (10 ^ drop)
    have hlarge : (mantissaBound - 1) * 10 ^ drop ≤ n := by
      refine (Nat.le_div_iff_mul_le (by positivity)).1 ?_
      have : 0 < mantissaBound := by decide
      omega
    have hlt : drop < scale := by
      rcases Nat.eq_or_lt_of_le hdrop with heq | hlt
      · rw [heq] at hlarge
        omega
      · exact hlt
    rw [if_neg hrounded, if_pos hlt]
    have hnext := roundHalfEven_le n (10 ^ (drop + 1))
    rw [pow_succ, ← Nat.div_div_eq_div_mul] at hnext
    refine ofMagnitude?_of_lt negative ?_ (by omega)
    rw [pow_succ]
    unfold mantissaBound at hlow ⊢
    omega

theorem add?_of_lt {a b : Decimal} (h : |a.toRat + b.toRat| < mantissaBound - 1) :
    ∃ r, a.add? b = some r := by
  cases hza : a.isZero with
  | true => exact ⟨b, by simp [add?, hza]⟩
  | false =>
    cases hzb : b.isZero with
    | true => exact ⟨a, by simp [add?, hza, hzb]⟩
    | false =>
      rw [add?_of_nonzero hza hzb]
      refine fit?_of_lt _ ?_
      rwa [alignedSum_toRat, abs_div, abs_of_pos (by positivity : (0 : ℚ) < 10 ^ _), ← Int.cast_abs,
        Int.abs_eq_natAbs, Int.cast_natCast] at h

theorem sub?_of_lt {a b : Decimal} (h : |a.toRat - b.toRat| < mantissaBound - 1) :
    ∃ r, a.sub? b = some r := by
  refine add?_of_lt ?_
  rwa [toRat_neg, ← sub_eq_add_neg]

theorem mul?_of_lt {a b : Decimal} (h : |a.toRat * b.toRat| < mantissaBound - 1) :
    ∃ r, a.mul? b = some r := by
  unfold mul?
  split
  · exact ⟨zero, rfl⟩
  · simp only
    split
    · exact ⟨zero, rfl⟩
    · refine fit?_of_lt _ ?_
      rw [abs_mul, abs_toRat, abs_toRat, div_mul_div_comm, ← pow_add] at h
      exact_mod_cast h

private theorem dropDigit?_of_pos (value : Nat) (inexact : Bool) {scale : Int} (h : 0 < scale) :
    ∃ quotient, dropDigit? value inexact scale = some quotient := by
  rw [dropDigit?, if_neg (by omega)]
  exact ⟨_, rfl⟩

private theorem roundRest?_of_room {divisor value rest : Nat} {scale : Int}
    (h : 0 < scale ∨ value + 1 < mantissaBound) :
    ∃ quotient, roundRest? divisor value rest scale = some quotient := by
  unfold roundRest?
  simp only
  generalize (decide (divisor < 2 * rest) || 2 * rest == divisor && value % 2 == 1) = up
  split
  · exact ⟨_, rfl⟩
  · rename_i hcarry
    have hone := Bool.toNat_le up
    exact dropDigit?_of_pos _ _ (h.resolve_right (by omega))

private theorem le_of_nonpos_scale {digits : Nat} {fraction : ℚ} {scale : Int} (h : scale ≤ 0)
    (hfraction : 0 ≤ fraction) : (digits : ℚ) ≤ (digits + fraction) / 10 ^ scale := by
  have hle : (1 : ℚ) ≤ 10 ^ (-scale) := one_le_zpow₀ (by norm_num) (by omega)
  rw [div_eq_mul_inv, ← zpow_neg]
  have hnonneg : (0 : ℚ) ≤ digits := Nat.cast_nonneg digits
  calc (digits : ℚ) ≤ digits + fraction := by linarith
    _ ≤ (digits + fraction) * 10 ^ (-scale) := le_mul_of_one_le_right (by linarith) hle

private theorem extend?_of_lt {divisor value rest : Nat} {scale : Int} (hrest : rest < divisor)
    (hvalue : value < mantissaBound) (hscale : scale ≤ maxScale)
    (h : (value + rest / divisor : ℚ) / 10 ^ scale < mantissaBound - 1) :
    ∃ quotient, extend? divisor value rest scale = some quotient := by
  have hdivisor : (0 : ℚ) < divisor := by exact_mod_cast Nat.zero_lt_of_lt hrest
  have hbeyond {digits : Nat} {fraction : ℚ} {s : Int} (hs : s ≤ 0) (hf : 0 ≤ fraction)
      (hsmall : (digits + fraction) / 10 ^ s < mantissaBound - 1) : digits + 1 < mantissaBound := by
    have hlt := (le_of_nonpos_scale hs hf).trans_lt hsmall
    have hlt' : ((digits + 1 : Nat) : ℚ) < mantissaBound := by
      push_cast
      linarith
    exact_mod_cast hlt'
  fun_induction extend? divisor value rest scale with
  | case1 value scale hnonneg => exact ⟨_, rfl⟩
  | case2 value scale hneg x grown hfits ih =>
    have hx : x ≤ scale.natAbs := Nat.min_le_right 9 scale.natAbs
    refine ih hrest hfits (by unfold maxScale; omega) ?_
    rw [← step_value hrest value 0 x scale] at h
    simpa [grown] using h
  | case3 value scale hneg x grown hfull =>
    have hx : x ≤ scale.natAbs := Nat.min_le_right 9 scale.natAbs
    rw [← step_value hrest value 0 x scale] at h
    have := hbeyond (by omega) (by positivity) h
    simp only [Nat.zero_mul, Nat.zero_div, Nat.add_zero] at this
    exact absurd (Nat.lt_of_succ_lt this) hfull
  | case4 value rest scale hne hlast =>
    refine roundRest?_of_room (.inl ?_)
    have : (0 : Int) < maxScale := by decide
    omega
  | case5 value rest scale hne hlast x hplaces =>
    obtain ⟨-, -, -, hmaximal⟩ := growth_le hvalue hscale
    have hfull := hmaximal (by omega) (by omega)
    rw [← step_value (Nat.zero_lt_of_lt hrest) value rest (x + 1) scale] at h
    have := hbeyond (by push_cast; omega) (by positivity) h
    change mantissaBound ≤ value * 10 ^ (x + 1) at hfull
    have hdigits := Nat.zero_le (rest * 10 ^ (x + 1) / divisor)
    omega
  | case6 value rest scale hne hlast x hplaces hx =>
    rcases lt_or_ge 0 scale with hpos | hnonpos
    · exact roundRest?_of_room (.inl hpos)
    · exact roundRest?_of_room (.inr (hbeyond hnonpos (by positivity) h))
  | case7 value rest scale hne hlast x hplaces hx scaled grown hfits ih =>
    obtain ⟨hroom, -⟩ := growth_le hvalue hscale
    refine ih (Nat.mod_lt _ (Nat.zero_lt_of_lt hrest)) hfits hroom ?_
    rwa [← step_value (Nat.zero_lt_of_lt hrest) value rest x scale] at h
  | case8 value rest scale hne hlast x hplaces hx scaled grown hfull =>
    rw [← step_value (Nat.zero_lt_of_lt hrest) value rest x scale] at h
    refine dropDigit?_of_pos _ _ ?_
    by_contra hnonpos
    have := hbeyond (not_lt.1 hnonpos) (by positivity) h
    exact hfull (Nat.lt_of_succ_lt this)

theorem div?_of_lt {a b : Decimal} (hb : b.isZero = false)
    (h : |a.toRat / b.toRat| < mantissaBound - 1) : ∃ r, a.div? b = some r := by
  cases hza : a.isZero with
  | true => exact ⟨zero, div?_of_isZero hza hb⟩
  | false =>
    have hdivisor : 0 < b.magnitude := by
      rw [isZero, beq_eq_false_iff_ne] at hb
      exact Nat.pos_of_ne_zero hb
    have hplaces : (a.scale : Int) - b.scale ≤ maxScale := by
      have := a.scale_le
      omega
    have hrest : a.magnitude % b.magnitude < b.magnitude := Nat.mod_lt _ hdivisor
    have hvalue : a.magnitude / b.magnitude < mantissaBound :=
      (Nat.div_le_self _ _).trans_lt a.magnitude_lt
    rw [← start_value a hb] at h
    obtain ⟨quotient, hextend⟩ := extend?_of_lt hrest hvalue hplaces h
    have hnearest := extend?_nearest hrest hvalue hplaces hextend
    have hshort := trim_shortens hnearest.places.1
    simp only [div?, hb, hza, Bool.false_eq_true, if_false, hextend]
    have htop := hnearest.places.2
    have hfits := hnearest.fits
    have hmag := hshort.magnitude
    have hless := hshort.places
    split
    · exact ofMagnitude?_of_lt _ hfits (by omega)
    · exact ofMagnitude?_of_lt _ (hmag.trans_lt hfits) (by omega)

end SignalDesk.Decimal
