import SignalDesk.Proofs.Decimal.Error

/-!
# Quotients

Long division extends a quotient digit by digit until it is exact, has no places left or fills the
mantissa, and then rounds it once. The quotient is off by half a unit of its last place at most, which
is less than one part in `10 ^ 28` of it and one.
-/

namespace SignalDesk.Decimal

/-- A quotient with its scale that is as near to `x` as a mantissa and the places allow. -/
structure Nearest (x : ℚ) (quotient : Nat × Int) : Prop where
  places : 0 ≤ quotient.2 ∧ quotient.2 ≤ maxScale
  fits : quotient.1 < mantissaBound
  error : |quotient.1 - x * 10 ^ quotient.2| ≤ 1 / 2
  full : quotient.1 = x * 10 ^ quotient.2 ∨ quotient.2 = maxScale ∨
    mantissaBound ≤ 10 * quotient.1 + 9

theorem growth_le {value : Nat} {scale : Int} (hvalue : value < mantissaBound)
    (hscale : scale ≤ maxScale) :
    scale + growth value scale ≤ maxScale ∧ value * 10 ^ growth value scale < mantissaBound ∧
      growth value scale ≤ 9 ∧ (growth value scale < 9 → scale + growth value scale < maxScale →
        mantissaBound ≤ value * 10 ^ (growth value scale + 1)) := by
  unfold growth
  generalize hroom : (List.range 10).filter (fun x : Nat =>
    scale + x ≤ maxScale ∧ value * Nat.pow 10 x < mantissaBound) = room
  have hmem (x : Nat) : x ∈ room ↔ x < 10 ∧ scale + x ≤ maxScale ∧ value * 10 ^ x < mantissaBound := by
    rw [← hroom, List.mem_filter, List.mem_range, decide_eq_true_iff]
    rfl
  have hzero : 0 ∈ room := (hmem 0).2 ⟨by decide, by simpa using hscale, by simpa using hvalue⟩
  have hsorted : room.Pairwise (· ≤ ·) := hroom ▸ List.pairwise_le_range.filter _
  have hne : room ≠ [] := List.ne_nil_of_mem hzero
  rw [List.getLast?_eq_some_getLast hne, Option.getD_some]
  obtain ⟨hlt, hplaces, hfits⟩ := (hmem _).1 (List.getLast_mem hne)
  refine ⟨hplaces, hfits, by omega, fun hless hroom => ?_⟩
  by_contra hmore
  have hnext : room.getLast hne + 1 ∈ room :=
    (hmem _).2 ⟨by omega, by push_cast; omega, by omega⟩
  have := hsorted.rel_getLast hnext
  omega

private theorem dropDigit?_eq_some {value : Nat} {inexact : Bool} {scale : Int}
    {quotient : Nat × Int} {y : ℚ}
    (hle : value ≤ y) (hlt : y < value + 1) (hexact : inexact = false → y = value)
    (h : dropDigit? value inexact scale = some quotient) :
    0 < scale ∧ quotient.2 = scale - 1 ∧ |quotient.1 - y / 10| ≤ 1 / 2 ∧
      value ≤ 10 * quotient.1 + 9 ∧ 10 * quotient.1 ≤ value + 10 := by
  unfold dropDigit? at h
  split at h
  · cases h
  · rename_i hscale
    rw [Option.some.injEq] at h
    subst h
    have hdigits : 10 * (value / 10) + value % 10 = value := Nat.div_add_mod value 10
    have hdigit : value % 10 < 10 := Nat.mod_lt value (by decide)
    generalize value / 10 = k at hdigits
    generalize value % 10 = digit at hdigits hdigit
    have hvalue : (value : ℚ) = 10 * k + digit := by exact_mod_cast hdigits.symm
    generalize hup : (decide (5 < digit) || digit == 5 && (inexact || k % 2 == 1)) = up
    refine ⟨by omega, rfl, ?_, ?_, ?_⟩
    · rw [abs_le]
      cases up with
      | true =>
        -- the dropped digits are half a unit or more
        have hhalf : 5 ≤ digit := by
          by_contra hless
          simp only [Bool.or_eq_true, decide_eq_true_iff, Bool.and_eq_true, beq_iff_eq] at hup
          omega
        have hhalf' : (5 : ℚ) ≤ digit := by exact_mod_cast hhalf
        have hnine : (digit : ℚ) ≤ 9 := by exact_mod_cast Nat.le_of_lt_succ hdigit
        simp only [Bool.toNat_true]
        push_cast
        constructor <;> linarith
      | false =>
        simp only [Bool.or_eq_false_iff, decide_eq_false_iff_not, Bool.and_eq_false_iff,
          beq_eq_false_iff_ne] at hup
        obtain ⟨hle', hfive⟩ := hup
        simp only [Bool.toNat_false, Nat.add_zero]
        rcases hfive with hne | ⟨hinexact, -⟩
        · have hfour : (digit : ℚ) ≤ 4 := by exact_mod_cast (by omega : digit ≤ 4)
          have hnonneg : (0 : ℚ) ≤ digit := Nat.cast_nonneg digit
          constructor <;> linarith
        · have hfive : (digit : ℚ) ≤ 5 := by exact_mod_cast Nat.le_of_not_lt hle'
          have hnonneg : (0 : ℚ) ≤ digit := Nat.cast_nonneg digit
          rw [hexact hinexact, hvalue]
          constructor <;> linarith
    · simp only
      omega
    · have hone := Bool.toNat_le up
      simp only
      omega

/-- Rounding a quotient `y` that is held at a scale is rounding its value. -/
private theorem nearest_of_scaled {y : ℚ} {scale : Int} {quotient : Nat × Int}
    (hplaces : 0 ≤ quotient.2 ∧ quotient.2 ≤ maxScale) (hfits : quotient.1 < mantissaBound)
    (herror : |quotient.1 - y * 10 ^ (quotient.2 - scale)| ≤ 1 / 2)
    (hfull : quotient.1 = y * 10 ^ (quotient.2 - scale) ∨ quotient.2 = maxScale ∨
      mantissaBound ≤ 10 * quotient.1 + 9) : Nearest (y / 10 ^ scale) quotient := by
  have hshift : y * 10 ^ (quotient.2 - scale) = y / 10 ^ scale * 10 ^ quotient.2 := by
    rw [zpow_sub₀ (by norm_num : (10 : ℚ) ≠ 0)]
    ring
  rw [hshift] at herror hfull
  exact ⟨hplaces, hfits, herror, hfull⟩

private theorem nearest_of_dropDigit? {value : Nat} {inexact : Bool} {scale : Int}
    {quotient : Nat × Int} {y : ℚ} (hle : value ≤ y) (hlt : y < value + 1)
    (hexact : inexact = false → y = value)
    (hscale : scale ≤ maxScale) (hgrown : mantissaBound ≤ value) (hvalue : value < 2 * mantissaBound)
    (h : dropDigit? value inexact scale = some quotient) : Nearest (y / 10 ^ scale) quotient := by
  obtain ⟨hpos, hplaces, herror, hlow, hhigh⟩ := dropDigit?_eq_some hle hlt hexact h
  have hten : y * 10 ^ (quotient.2 - scale) = y / 10 := by
    rw [hplaces, sub_sub_cancel_left, zpow_neg_one, ← div_eq_mul_inv]
  refine nearest_of_scaled ⟨by omega, by omega⟩ ?_ (by rwa [hten]) (.inr (.inr (hgrown.trans hlow)))
  unfold mantissaBound at *
  omega

private theorem dropDigit?_mantissaBound (scale : Int) :
    dropDigit? mantissaBound true scale =
      if scale ≤ 0 then none else some (7922816251426433759354395034, scale - 1) :=
  rfl

private theorem roundRest?_nearest {divisor value rest : Nat} {scale : Int} {quotient : Nat × Int}
    (hrest : rest < divisor) (hvalue : value < mantissaBound)
    (hscale : 0 ≤ scale ∧ scale ≤ maxScale)
    (hfull : scale = maxScale ∨ mantissaBound ≤ 10 * value + 9)
    (h : roundRest? divisor value rest scale = some quotient) :
    Nearest ((value + rest / divisor) / 10 ^ scale) quotient := by
  have hdivisor : (0 : ℚ) < divisor := by exact_mod_cast Nat.zero_lt_of_lt hrest
  unfold roundRest? at h
  simp only at h
  generalize hup : (decide (divisor < 2 * rest) || 2 * rest == divisor && value % 2 == 1) = up at h
  have hfraction : (0 : ℚ) ≤ rest / divisor ∧ (rest / divisor : ℚ) < 1 :=
    ⟨by positivity, (div_lt_one hdivisor).2 (by exact_mod_cast hrest)⟩
  have hhalf : if up then (1 / 2 : ℚ) ≤ rest / divisor else (rest / divisor : ℚ) ≤ 1 / 2 := by
    cases up with
    | true =>
      have hle : divisor ≤ 2 * rest := by
        simp only [Bool.or_eq_true, decide_eq_true_iff, Bool.and_eq_true, beq_iff_eq] at hup
        omega
      have hle' : (divisor : ℚ) ≤ 2 * rest := by exact_mod_cast hle
      rw [if_pos rfl, div_le_div_iff₀ (by norm_num) hdivisor]
      linarith
    | false =>
      simp only [Bool.or_eq_false_iff, decide_eq_false_iff_not, not_lt] at hup
      have hle : (2 * rest : ℚ) ≤ divisor := by exact_mod_cast hup.1
      rw [if_neg (by decide), div_le_div_iff₀ hdivisor (by norm_num)]
      linarith
  split at h
  · rename_i hfits
    rw [Option.some.injEq] at h
    subst h
    refine nearest_of_scaled hscale hfits ?_ (.inr (hfull.imp_right fun h => ?_))
    · rw [sub_self, zpow_zero, mul_one, abs_le]
      cases up <;> simp at hhalf ⊢ <;> constructor <;> linarith
    · exact h.trans (by simp only; omega)
  · -- the quotient was the largest mantissa and has been rounded up
    rename_i hcarry
    cases up with
    | false => exact absurd hvalue hcarry
    | true =>
      have hlast : value + 1 = mantissaBound := by
        simp only [Bool.toNat_true] at hcarry
        omega
      have hlast' : (value : ℚ) = 79228162514264337593543950335 := by
        unfold mantissaBound at hlast
        exact_mod_cast (by omega : value = 79228162514264337593543950335)
      rw [Bool.toNat_true, hlast, dropDigit?_mantissaBound] at h
      split at h
      · cases h
      · rename_i hpos
        rw [Option.some.injEq] at h
        subst h
        rw [if_pos rfl] at hhalf
        have hfits : 7922816251426433759354395034 < mantissaBound := by decide
        have hfilled : mantissaBound ≤ 10 * 7922816251426433759354395034 + 9 := by decide
        refine nearest_of_scaled ⟨by simp only; omega, by simp only; omega⟩ hfits ?_
          (.inr (.inr hfilled))
        rw [sub_sub_cancel_left, zpow_neg_one, ← div_eq_mul_inv, hlast', abs_le]
        constructor <;> norm_num <;> linarith

/-- A step of long division moves digits from the remainder to the quotient. -/
theorem step_value {divisor : Nat} (hdivisor : 0 < divisor) (value rest x : Nat) (scale : Int) :
    ((value * 10 ^ x + rest * 10 ^ x / divisor : Nat) +
        (rest * 10 ^ x % divisor : Nat) / divisor : ℚ) / 10 ^ (scale + x) =
      (value + rest / divisor) / 10 ^ scale := by
  have hpos : (0 : ℚ) < divisor := by exact_mod_cast hdivisor
  have hdiv : (divisor * (rest * 10 ^ x / divisor : Nat) + (rest * 10 ^ x % divisor : Nat) : ℚ) =
      rest * 10 ^ x := by exact_mod_cast Nat.div_add_mod (rest * 10 ^ x) divisor
  have hvalue : ((value * 10 ^ x + rest * 10 ^ x / divisor : Nat) +
      (rest * 10 ^ x % divisor : Nat) / divisor : ℚ) = (value + rest / divisor) * 10 ^ x := by
    push_cast
    field_simp
    linear_combination hdiv
  rw [hvalue, zpow_add₀ (by norm_num : (10 : ℚ) ≠ 0), zpow_natCast,
    mul_div_mul_right _ _ (by positivity)]

/-- Long division ends at the nearest quotient. -/
theorem extend?_nearest {divisor value rest : Nat} {scale : Int} {quotient : Nat × Int}
    (hrest : rest < divisor) (hvalue : value < mantissaBound) (hscale : scale ≤ maxScale)
    (h : extend? divisor value rest scale = some quotient) :
    Nearest ((value + rest / divisor) / 10 ^ scale) quotient := by
  have hdivisor : (0 : ℚ) < divisor := by exact_mod_cast Nat.zero_lt_of_lt hrest
  fun_induction extend? divisor value rest scale with
  | case1 value scale hnonneg =>
    rw [Option.some.injEq] at h
    subst h
    have hexact : (value : ℚ) = (value + (0 : Nat) / divisor) / 10 ^ scale * 10 ^ scale := by
      rw [div_mul_cancel₀ _ (by positivity), Nat.cast_zero, zero_div, add_zero]
    refine ⟨⟨hnonneg, hscale⟩, hvalue, ?_, .inl hexact⟩
    rw [← hexact, sub_self, abs_zero]
    norm_num
  | case2 value scale hneg x grown hfits ih =>
    have hx : x ≤ scale.natAbs := Nat.min_le_right 9 scale.natAbs
    have hnearest := ih hrest hfits (by unfold maxScale; omega) h
    rw [← step_value hrest value 0 x scale]
    simpa [grown] using hnearest
  | case3 => cases h
  | case4 value rest scale hne hlast =>
    exact roundRest?_nearest hrest hvalue ⟨(by decide : (0 : Int) ≤ maxScale).trans hlast, hscale⟩
      (.inl (le_antisymm hscale hlast)) h
  | case5 => cases h
  | case6 value rest scale hne hlast x hplaces hx =>
    obtain ⟨-, -, -, hmaximal⟩ := growth_le hvalue hscale
    have hfull := hmaximal (by omega) (by omega)
    rw [show growth value scale = 0 from hx] at hfull
    exact roundRest?_nearest hrest hvalue ⟨by omega, hscale⟩ (.inr (by omega)) h
  | case7 value rest scale hne hlast x hplaces hx scaled grown hfits ih =>
    obtain ⟨hroom, -⟩ := growth_le hvalue hscale
    have hnearest := ih (Nat.mod_lt _ (Nat.zero_lt_of_lt hrest)) hfits hroom h
    rwa [← step_value (Nat.zero_lt_of_lt hrest) value rest x scale]
  | case8 value rest scale hne hlast x hplaces hx scaled grown hfull =>
    obtain ⟨hroom, hvalue', hnine, -⟩ := growth_le hvalue hscale
    change value * 10 ^ x < mantissaBound at hvalue'
    rw [← step_value (Nat.zero_lt_of_lt hrest) value rest x scale]
    have hmod : scaled % divisor < divisor := Nat.mod_lt _ (Nat.zero_lt_of_lt hrest)
    have hmod' : ((scaled % divisor : Nat) / divisor : ℚ) < 1 :=
      (div_lt_one hdivisor).2 (by exact_mod_cast hmod)
    have hgrown : grown < 2 * mantissaBound := by
      have hdigits : scaled / divisor < 10 ^ x :=
        Nat.div_lt_of_lt_mul (Nat.mul_lt_mul_of_pos_right hrest (Nat.pow_pos (by decide)))
      have hbillion : 10 ^ x ≤ 10 ^ 9 := Nat.pow_le_pow_right (by decide) hnine
      have hsum : grown = value * 10 ^ x + scaled / divisor := rfl
      have hbound : 10 ^ 9 ≤ mantissaBound := by decide
      omega
    refine nearest_of_dropDigit? (le_add_of_nonneg_right (by positivity))
      (add_lt_add_of_le_of_lt le_rfl hmod') (fun hexact => ?_) hroom (Nat.le_of_not_lt hfull) hgrown h
    have hzero : rest * 10 ^ x % divisor = 0 := by simpa [scaled] using hexact
    rw [hzero, Nat.cast_zero, zero_div, add_zero]

/-- Another way to write a quotient, with no more digits and places. -/
structure Shortens (short quotient : Nat × Int) : Prop where
  nonneg : 0 ≤ short.2
  places : short.2 ≤ quotient.2
  magnitude : short.1 ≤ quotient.1
  value : (short.1 / 10 ^ short.2 : ℚ) = quotient.1 / 10 ^ quotient.2

theorem Shortens.trans {a b c : Nat × Int} (h : Shortens a b) (h' : Shortens b c) : Shortens a c :=
  ⟨h.nonneg, h.places.trans h'.places, h.magnitude.trans h'.magnitude, h.value.trans h'.value⟩

private theorem stripPower_shortens (step bits : Nat) {quotient : Nat × Int} (h : 0 ≤ quotient.2) :
    Shortens (stripPower step bits quotient) quotient := by
  obtain ⟨value, scale⟩ := quotient
  simp only [stripPower]
  split
  · rename_i hstrip
    obtain ⟨-, hstep, hmod⟩ := hstrip
    rw [Nat.pow_eq] at hmod ⊢
    refine ⟨by simp only; omega, by simp only; omega, Nat.div_le_self _ _, ?_⟩
    simp only
    rw [Nat.cast_div (Nat.dvd_of_mod_eq_zero hmod) (by positivity),
      zpow_sub₀ (by norm_num : (10 : ℚ) ≠ 0), zpow_natCast]
    push_cast
    field_simp
  · exact ⟨h, le_rfl, le_rfl, rfl⟩

theorem trim_shortens {quotient : Nat × Int} (h : 0 ≤ quotient.2) :
    Shortens (trim quotient) quotient := by
  have h₁ := stripPower_shortens 8 32 h
  have h₂ := (stripPower_shortens 8 32 h₁.nonneg).trans h₁
  have h₃ := (stripPower_shortens 8 32 h₂.nonneg).trans h₂
  have h₄ := (stripPower_shortens 4 4 h₃.nonneg).trans h₃
  have h₅ := (stripPower_shortens 2 2 h₄.nonneg).trans h₄
  exact (stripPower_shortens 1 1 h₅.nonneg).trans h₅

private theorem Nearest.value_error {x : ℚ} {quotient : Nat × Int} (h : Nearest x quotient)
    (hx : 0 ≤ x) : |quotient.1 / 10 ^ quotient.2 - x| ≤ ulp * (1 + x) := by
  have hp : (0 : ℚ) < 10 ^ quotient.2 := by positivity
  have herror : |quotient.1 / 10 ^ quotient.2 - x| * 10 ^ quotient.2 ≤ 1 / 2 := by
    rw [← abs_of_pos hp, ← abs_mul, abs_of_pos hp, sub_mul, div_mul_cancel₀ _ hp.ne']
    exact h.error
  rcases h.full with hexact | hlast | hfull
  · rw [hexact, mul_div_cancel_right₀ _ hp.ne', sub_self, abs_zero]
    exact mul_nonneg ulp_pos.le (by linarith)
  · have hulp : ulp * 10 ^ quotient.2 = 1 := by
      rw [hlast]
      norm_num [ulp, maxScale]
    refine le_of_mul_le_mul_right (herror.trans ?_) hp
    rw [mul_right_comm, hulp]
    linarith
  · -- the mantissa is so large that half a unit of it is less than one part in 10 ^ 28
    have hlarge : (mantissaBound : ℚ) ≤ 10 * quotient.1 + 9 := by exact_mod_cast hfull
    have hnear := (abs_le.1 h.error).2
    refine le_of_mul_le_mul_right (herror.trans ?_) hp
    have hulp : 1 / 2 ≤ ulp * (x * 10 ^ quotient.2) := by
      unfold mantissaBound at hlarge
      unfold ulp
      norm_num at hlarge ⊢
      linarith
    calc (1 / 2 : ℚ) ≤ ulp * (x * 10 ^ quotient.2) := hulp
      _ ≤ ulp * (1 + x) * 10 ^ quotient.2 := by
        rw [← mul_assoc]
        have := ulp_pos
        gcongr
        linarith

theorem start_value (a : Decimal) {b : Decimal} (hb : b.isZero = false) :
    ((a.magnitude / b.magnitude : Nat) + (a.magnitude % b.magnitude : Nat) / b.magnitude : ℚ) /
      10 ^ ((a.scale : Int) - b.scale) = |a.toRat / b.toRat| := by
  have hpos : (b.magnitude : ℚ) ≠ 0 := by
    rw [isZero, beq_eq_false_iff_ne] at hb
    exact_mod_cast hb
  have hdiv : (b.magnitude * (a.magnitude / b.magnitude : Nat) + (a.magnitude % b.magnitude : Nat) : ℚ) =
      a.magnitude := by exact_mod_cast Nat.div_add_mod a.magnitude b.magnitude
  rw [abs_div, abs_toRat, abs_toRat, zpow_sub₀ (by norm_num : (10 : ℚ) ≠ 0), zpow_natCast,
    zpow_natCast, ← hdiv]
  field_simp

private theorem div?_nearest {a b r : Decimal} (ha : a.isZero = false) (h : a.div? b = some r) :
    b.isZero = false ∧ ∃ quotient, Nearest |a.toRat / b.toRat| quotient ∧
      (r.magnitude / 10 ^ r.scale : ℚ) = quotient.1 / 10 ^ quotient.2 ∧
      r.toRat = signed (a.isNegative != b.isNegative) (r.magnitude / 10 ^ r.scale) := by
  cases hb : b.isZero with
  | true => simp [div?, hb] at h
  | false =>
    refine ⟨rfl, ?_⟩
    have hdivisor : 0 < b.magnitude := by
      rw [isZero, beq_eq_false_iff_ne] at hb
      exact Nat.pos_of_ne_zero hb
    have hplaces : (a.scale : Int) - b.scale ≤ maxScale := by
      have := a.scale_le
      omega
    simp only [div?, hb, ha, Bool.false_eq_true, if_false] at h
    split at h
    · cases h
    · rename_i quotient hextend
      have hnearest := extend?_nearest (Nat.mod_lt _ hdivisor)
        ((Nat.div_le_self _ _).trans_lt a.magnitude_lt) hplaces hextend
      rw [start_value a hb] at hnearest
      refine ⟨quotient, hnearest, ?_⟩
      have hshort : Shortens (if a.magnitude % b.magnitude = 0 then quotient else trim quotient)
          quotient := by
        split
        · exact ⟨hnearest.places.1, le_rfl, le_rfl, rfl⟩
        · exact trim_shortens hnearest.places.1
      generalize (if a.magnitude % b.magnitude = 0 then quotient else trim quotient) = short
        at h hshort
      obtain ⟨hscale, hmag, hsign⟩ := ofMagnitude?_eq_some h
      constructor
      · rw [hscale, hmag, ← hshort.value, ← zpow_natCast, Int.toNat_of_nonneg hshort.nonneg]
      · rw [toRat_eq_signed r, hsign]
        rcases Nat.eq_zero_or_pos r.magnitude with hzero | hpos
        · simp [hzero, signed]
        · simp [bne_iff_ne.2 hpos.ne']

/-- A quotient is off by less than one part in `10 ^ 28` of it and one. -/
theorem div?_error {a b r : Decimal} (h : a.div? b = some r) :
    |r.toRat - a.toRat / b.toRat| ≤ ulp * (1 + |a.toRat / b.toRat|) := by
  cases ha : a.isZero with
  | true =>
    have hb : b.isZero = false := by
      by_contra hb
      simp [div?, hb] at h
    rw [div?_of_isZero ha hb, Option.some.injEq] at h
    rw [← h, (isZero_iff a).1 ha, toRat_zero, zero_div, sub_zero, abs_zero]
    exact mul_nonneg ulp_pos.le (by norm_num)
  | false =>
    obtain ⟨-, quotient, hnearest, hvalue, hsigned⟩ := div?_nearest ha h
    have hexact : a.toRat / b.toRat = signed (a.isNegative != b.isNegative) |a.toRat / b.toRat| := by
      rw [abs_div, abs_toRat, abs_toRat, toRat_eq_signed a, toRat_eq_signed b]
      unfold signed
      cases a.isNegative <;> cases b.isNegative <;> simp [neg_div, div_neg]
    have herror := hnearest.value_error (abs_nonneg _)
    rw [← hvalue] at herror
    rw [hsigned]
    nth_rewrite 1 [hexact]
    rwa [abs_signed_sub]

end SignalDesk.Decimal
