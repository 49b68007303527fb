import SignalDesk.Proofs.Float.Bits

/-!
# Exact results

A product or a quotient that a float can hold is not rounded at all. Neither is a written number,
whichever way it takes: over exact powers of ten while it is short, in whole numbers otherwise.
-/

namespace SignalDesk.FloatValue

open Float.Model (UnpackedFloat Format)
open Float.Model.UnpackedFloat (Sign Accuracy)

theorem magnitude_zero_right (n : ℕ) : magnitude n 0 = n := by
  unfold magnitude
  rw [zpow_zero, mul_one]

private theorem magnitude_ten_pow (k : ℕ) : magnitude (10 ^ k) 0 = 10 ^ (k : ℤ) := by
  rw [magnitude_zero_right, zpow_natCast]
  push_cast
  rfl

theorem magnitude_lengthened (n : ℕ) :
    magnitude (n <<< Format.binary64.mantissaBits) (-Format.binary64.mantissaBits) = n := by
  have hshift := magnitude_shiftLeft n Format.binary64.mantissaBits 0
  rwa [zero_sub, magnitude_zero_right] at hshift

private theorem Canonical.target_eq {m : ℕ} {e : ℤ} (h : Canonical m e) (hm : 0 < m) :
    target m e = e := by
  rcases h.normal with hnormal | rfl
  · have hlog : m.log2 = 52 := (Nat.log2_eq_iff hm.ne').2 ⟨hnormal, h.mantissa_lt⟩
    have := h.exponent_ge
    unfold target
    omega
  · exact le_antisymm (target_of_lt h.mantissa_lt le_rfl) (target_ge _ _)

section

variable {m m' : ℕ} {e e' : ℤ} (h : Canonical m e) (hm : 0 < m)

include h hm

omit hm in
private theorem exists_zeros (he : e' ≤ target m' e') (hge : magnitude m' e' ≤ magnitude m e)
    (hlt : magnitude m e < magnitude (m' + 1) e') : ∃ k : ℕ, e = e' + k ∧ m' = m * 2 ^ k := by
  have hle : e' ≤ e := by
    by_contra hlow
    have hlong : (2 : ℚ) ^ 52 ≤ m' := by
      have hbase := h.exponent_ge
      have hlog : 52 ≤ m'.log2 := by
        unfold target at he
        omega
      have hm' : m' ≠ 0 := by
        rintro rfl
        simp at hlog
      exact_mod_cast (Nat.le_log2 hm').1 hlog
    have hstep : (2 : ℚ) ^ (e + 1) ≤ 2 ^ e' := zpow_le_zpow_right₀ one_le_two (by omega)
    have hshort : (m : ℚ) < 2 ^ 53 := by exact_mod_cast h.mantissa_lt
    have hpower : (0 : ℚ) < 2 ^ e := by positivity
    apply hge.not_gt
    calc magnitude m e < 2 ^ 53 * 2 ^ e := mul_lt_mul_of_pos_right hshort hpower
      _ = 2 ^ 52 * 2 ^ (e + 1) := by rw [zpow_add_one₀ two_ne_zero]; ring
      _ ≤ m' * 2 ^ e' := mul_le_mul hlong hstep (by positivity) (Nat.cast_nonneg _)
  obtain ⟨k, hk⟩ := Int.eq_ofNat_of_zero_le (sub_nonneg.2 hle)
  refine ⟨k, by omega, ?_⟩
  have hpower : (0 : ℚ) < 2 ^ e' := by positivity
  have hsplit : magnitude m e = (m * 2 ^ k : ℕ) * 2 ^ e' := by
    have he : e = e' + k := by omega
    unfold magnitude
    rw [he, zpow_add₀ two_ne_zero, zpow_natCast]
    push_cast
    ring
  rw [hsplit] at hge hlt
  have hlow : m' ≤ m * 2 ^ k := by exact_mod_cast le_of_mul_le_mul_right hge hpower
  have hhigh : m * 2 ^ k < m' + 1 := by exact_mod_cast lt_of_mul_lt_mul_right hlt hpower.le
  omega

private theorem roundWithAccuracy_zeros (s : Sign) (k : ℕ) :
    UnpackedFloat.roundWithAccuracy .binary64 s (m * 2 ^ k) (e - k) .exact = .finite s m e hm := by
  have htarget : target (m * 2 ^ k) (e - k) = e := by
    rw [← Nat.shiftLeft_eq, target_shiftLeft hm, h.target_eq hm]
  have hk : target (m * 2 ^ k) (e - k) = e - k + k := by omega
  have hsettled : settled m e = (m, e) := if_neg h.mantissa_lt.ne
  rw [roundWithAccuracy_settled s hk .exact, cut_mul_two_pow, htarget, hsettled]
  exact dif_neg hm.ne'

/-- A number that a float can hold is rounded to itself. -/
theorem roundWithAccuracy_exact (s : Sign) (he : e' ≤ target m' e')
    (heq : magnitude m' e' = magnitude m e) :
    UnpackedFloat.roundWithAccuracy .binary64 s m' e' .exact = .finite s m e hm := by
  obtain ⟨k, rfl, rfl⟩ := exists_zeros h he heq.le (heq ▸ magnitude_lt_succ m' e')
  have := roundWithAccuracy_zeros h hm s k
  rwa [add_sub_cancel_right] at this

variable {m₁ m₂ : ℕ} {e₁ e₂ : ℤ} (h₁ : 0 < m₁) (h₂ : 0 < m₂)

private theorem mul_exact (s t : Sign) (he : e₁ + e₂ ≤ target (m₁ * m₂) (e₁ + e₂))
    (heq : magnitude m₁ e₁ * magnitude m₂ e₂ = magnitude m e) :
    UnpackedFloat.mul .binary64 (.finite s m₁ e₁ h₁) (.finite t m₂ e₂ h₂) =
      .finite (s * t) m e hm :=
  roundWithAccuracy_exact h hm (s * t) he (magnitude_mul m₁ m₂ e₁ e₂ ▸ heq)

private theorem div_exact (s t : Sign) (heq : magnitude m₁ e₁ / magnitude m₂ e₂ = magnitude m e) :
    UnpackedFloat.div .binary64 (.finite s m₁ e₁ h₁) (.finite t m₂ e₂ h₂) =
      .finite (s / t) m e hm := by
  let q := quotientExponent m₁ e₁ m₂ e₂
  let shift := (e₁ - e₂ - q).toNat
  have hshift : e₁ - e₂ = q + shift := by
    have : q ≤ e₁ - e₂ := min_le_left _ _
    omega
  have hpower : (0 : ℚ) < 2 ^ q := by positivity
  obtain ⟨hfloor, hceil⟩ := quotient_bounds (m₁ <<< shift) m₂ h₂
  rw [magnitude_div h₂ hshift] at heq
  have hge : magnitude (m₁ <<< shift / m₂) q ≤ magnitude m e :=
    heq ▸ mul_le_mul_of_nonneg_right hfloor hpower.le
  have hlt : magnitude m e < magnitude (m₁ <<< shift / m₂ + 1) q := by
    rw [← heq]
    unfold magnitude
    push_cast
    exact mul_lt_mul_of_pos_right hceil hpower
  obtain ⟨k, hk, hquotient⟩ :=
    exists_zeros h (quotientExponent_le_target h₁ h₂ hshift) hge hlt
  -- the quotient is whole, so nothing is left over
  have hdivides : m₁ <<< shift % m₂ = 0 := by
    have hm₂ : (m₂ : ℚ) ≠ 0 := by exact_mod_cast h₂.ne'
    have hwhole : (m₁ <<< shift : ℕ) / (m₂ : ℚ) = (m * 2 ^ k : ℕ) := by
      apply mul_right_cancel₀ hpower.ne'
      rw [heq]
      unfold magnitude
      rw [hk, zpow_add₀ two_ne_zero, zpow_natCast]
      push_cast
      ring
    rw [div_eq_iff hm₂] at hwhole
    have hproduct : m₁ <<< shift = m * 2 ^ k * m₂ := by exact_mod_cast hwhole
    rw [hproduct, Nat.mul_mod_left]
  show UnpackedFloat.roundWithAccuracy .binary64 (s / t) (m₁ <<< shift / m₂) q
    (UnpackedFloat.accuracyOfFraction (m₁ <<< shift % m₂) m₂) = _
  have hq : e - k = q := by
    rw [hk]
    exact add_sub_cancel_right _ _
  have hround := roundWithAccuracy_zeros h hm (s / t) k
  rw [hq] at hround
  rw [hdivides, hquotient]
  exact hround

/-- A written number that a float can hold, read in whole numbers. The bounds are those beyond which
the reader does not look. -/
theorem ofScientific_unpacked {n : ℕ} {k : ℤ} (hn : 0 < n) (hk : k ≤ 2048)
    (hk' : -(2048 + (n.log2 : ℤ)) ≤ k) (heq : (n : ℚ) * 10 ^ k = magnitude m e) :
    UnpackedFloat.ofScientific .binary64 n k = .finite .positive m e hm := by
  have hbits : (2 : ℤ) ^ Format.binary64.exponentBits = 2048 := rfl
  unfold UnpackedFloat.ofScientific
  rw [dif_neg hn.ne', hbits, if_neg (not_lt.2 hk), if_neg (not_lt.2 hk')]
  by_cases hsign : 0 ≤ k
  · rw [if_pos hsign]
    have hlong : 2 ^ 52 ≤ n <<< Format.binary64.mantissaBits * 10 ^ k.toNat := by
      have hpower : 0 < 10 ^ k.toNat := by positivity
      rw [Nat.shiftLeft_eq]
      show 2 ^ 52 ≤ n * 2 ^ 53 * 10 ^ k.toNat
      nlinarith
    apply mul_exact h hm _ _ .positive .positive (le_target_of_normal hlong)
    rw [magnitude_lengthened, magnitude_ten_pow, Int.toNat_of_nonneg hsign, heq]
  · rw [if_neg hsign]
    apply div_exact h hm _ _ .positive .positive
    rw [magnitude_zero_right, magnitude_ten_pow, Int.toNat_of_nonneg (by omega), zpow_neg,
      div_inv_eq_mul, heq]

end

/-- A positive finite float and its value. -/
structure Holds (x : Float) (m : ℕ) (e : ℤ) : Prop where
  canonical : Canonical m e
  pos : 0 < m
  unpack_eq : x.toModel.unpack = .finite .positive m e pos

theorem holds_pack {m : ℕ} {e : ℤ} (h : Canonical m e) (hm : 0 < m) :
    Holds ⟨Float.Model.pack (.finite .positive m e hm)⟩ m e :=
  ⟨h, hm, unpack_pack (u := .finite .positive m e hm) h⟩

theorem Holds.eq {x y : Float} {m : ℕ} {e : ℤ} (hx : Holds x m e) (hy : Holds y m e) : x = y :=
  eq_of_unpack_eq (hx.unpack_eq.trans hy.unpack_eq.symm)

theorem Holds.finite {x : Float} {m : ℕ} {e : ℤ} (h : Holds x m e) : x.isFinite = true := by
  show x.toModel.unpack.isFinite = true
  rw [h.unpack_eq]
  rfl

theorem Holds.value_eq {x : Float} {m : ℕ} {e : ℤ} (h : Holds x m e) : value x = magnitude m e :=
  congrArg ofUnpacked h.unpack_eq

theorem exists_canonical {n : ℕ} {e : ℤ} (hn : 0 < n) (hlt : n < 2 ^ 53) (hlow : -1022 ≤ e)
    (hhigh : e ≤ 971) : ∃ m e', Canonical m e' ∧ 0 < m ∧ magnitude m e' = magnitude n e := by
  have hlog : n.log2 < 53 := (Nat.log2_lt hn.ne').2 hlt
  let k := 52 - n.log2
  have hbits : (n <<< k).log2 = 52 := by
    rw [log2_shiftLeft hn]
    omega
  have hpos : 0 < n <<< k := by
    rw [Nat.shiftLeft_eq]
    positivity
  obtain ⟨hlow', hhigh'⟩ := (Nat.log2_eq_iff hpos.ne').1 hbits
  exact ⟨n <<< k, e - k, ⟨hhigh', by omega, by omega, .inl hlow'⟩, hpos, magnitude_shiftLeft n k e⟩

private theorem round_exact {m n : ℕ} {e : ℤ} (h : Canonical m e) (hm : 0 < m) (hn : 0 < n) (s : Sign)
    (heq : magnitude m e = n) :
    UnpackedFloat.round .binary64 s n 0 = .finite s m e hm := by
  let k := (0 - target n 0).toNat
  show UnpackedFloat.roundWithAccuracy .binary64 s (n <<< k) (0 - k) .exact = _
  apply roundWithAccuracy_exact h hm
  · rw [target_shiftLeft hn]
    show 0 - ((0 - target n 0).toNat : ℤ) ≤ target n 0
    omega
  · rw [magnitude_shiftLeft, magnitude_zero_right, heq]

theorem holds_toFloat {n : ℕ} (hn : 0 < n) (hlt : n < 2 ^ 53) :
    ∃ m e, Holds n.toUInt64.toFloat m e ∧ magnitude m e = n := by
  obtain ⟨m, e, h, hm, heq⟩ := exists_canonical (e := 0) hn hlt (by decide) (by decide)
  rw [magnitude_zero_right] at heq
  have hword : n.toUInt64.toNat = n := Nat.mod_eq_of_lt (by omega)
  have hround : UnpackedFloat.ofUInt64 .binary64 n.toUInt64 = .finite .positive m e hm := by
    have hpos : compare (n : ℤ) 0 = .gt := compare_gt_iff_gt.2 (by omega)
    unfold UnpackedFloat.ofUInt64 UnpackedFloat.ofNat UnpackedFloat.ofInt UnpackedFloat.normalize
    rw [hword, hpos]
    exact round_exact h hm hn .positive heq
  refine ⟨m, e, ⟨h, hm, ?_⟩, heq⟩
  show (Float.Model.pack (UnpackedFloat.ofUInt64 .binary64 n.toUInt64)).unpack = _
  rw [hround]
  exact unpack_pack (u := .finite .positive m e hm) h

theorem holds_of_value_pos {x : Float} (hx : x.isFinite = true) (hpos : 0 < value x) :
    ∃ m e, Holds x m e ∧ value x = magnitude m e := by
  have hregular := regular_unpack hx
  unfold value at hpos ⊢
  cases hu : x.toModel.unpack with
  | notANumber => rw [hu] at hregular; exact hregular.elim
  | infinity => rw [hu] at hregular; exact hregular.elim
  | zero s => rw [hu] at hpos; exact absurd hpos (lt_irrefl 0)
  | finite s m e hm =>
    rw [hu] at hregular hpos
    cases s with
    | negative => exact absurd hpos (not_lt.2 (neg_nonpos.2 (magnitude_nonneg m e)))
    | positive => exact ⟨m, e, ⟨hregular, hm, hu⟩, rfl⟩

private theorem exactlyRepresentablePowersOfTen_exact : ∀ i :
    Fin Float.exactlyRepresentablePowersOfTen.size,
    Float.exactlyRepresentablePowersOfTen[i].isFinite = true ∧
      value Float.exactlyRepresentablePowersOfTen[i] = 10 ^ i.val := by
  decide +kernel

private theorem holds_powerOfTen {k : ℕ} (hk : k < Float.exactlyRepresentablePowersOfTen.size) :
    ∃ m e, Holds Float.exactlyRepresentablePowersOfTen[k] m e ∧ magnitude m e = 10 ^ (k : ℤ) := by
  obtain ⟨hfinite, hvalue⟩ := exactlyRepresentablePowersOfTen_exact ⟨k, hk⟩
  have hpos : 0 < value Float.exactlyRepresentablePowersOfTen[k] := by
    rw [Fin.getElem_fin] at hvalue
    rw [hvalue]
    positivity
  obtain ⟨m, e, hx, heq⟩ := holds_of_value_pos hfinite hpos
  refine ⟨m, e, hx, ?_⟩
  rw [← heq, zpow_natCast]
  exact hvalue

section

variable {x y : Float} {m m₁ m₂ : ℕ} {e e₁ e₂ : ℤ} (hx : Holds x m₁ e₁) (hy : Holds y m₂ e₂)
  (h : Canonical m e) (hm : 0 < m)

include hx hy h hm

theorem Holds.mul (heq : magnitude m₁ e₁ * magnitude m₂ e₂ = magnitude m e) :
    Holds (x * y) m e := by
  refine ⟨h, hm, ?_⟩
  show (Float.Model.pack (UnpackedFloat.mul .binary64 x.toModel.unpack y.toModel.unpack)).unpack = _
  rw [hx.unpack_eq, hy.unpack_eq, mul_exact h hm hx.pos hy.pos .positive .positive
    (hx.canonical.le_target_mul hy.canonical hx.pos hy.pos) heq]
  exact unpack_pack (u := .finite .positive m e hm) h

theorem Holds.div (heq : magnitude m₁ e₁ / magnitude m₂ e₂ = magnitude m e) :
    Holds (x / y) m e := by
  refine ⟨h, hm, ?_⟩
  show (Float.Model.pack (UnpackedFloat.div .binary64 x.toModel.unpack y.toModel.unpack)).unpack = _
  rw [hx.unpack_eq, hy.unpack_eq, div_exact h hm hx.pos hy.pos .positive .positive heq]
  exact unpack_pack (u := .finite .positive m e hm) h

end

/-- A written number that a float can hold is read as that float. -/
theorem holds_ofScientific {m n : ℕ} {e k : ℤ} (h : Canonical m e) (hm : 0 < m) (hn : 0 < n)
    (hk : k ≤ 2048) (hk' : -(2048 + (n.log2 : ℤ)) ≤ k) (heq : (n : ℚ) * 10 ^ k = magnitude m e) :
    Holds (Float.ofScientific n (k < 0) k.natAbs) m e := by
  unfold Float.ofScientific
  split
  · rename_i hshort
    obtain ⟨m₁, e₁, hdigits, hvalue⟩ := holds_toFloat hn hshort.1
    obtain ⟨m₂, e₂, hpower, htens⟩ := holds_powerOfTen (Nat.lt_succ_of_le hshort.2)
    by_cases hsign : k < 0
    · simp only [hsign, decide_true, if_true]
      apply hdigits.div hpower h hm
      rw [hvalue, htens, ← heq, div_eq_mul_inv, ← zpow_neg]
      congr 2
      omega
    · simp only [hsign, decide_false]
      apply hdigits.mul hpower h hm
      rw [hvalue, htens, ← heq]
      congr 2
      omega
  · have hexponent :
        (if decide (k < 0) = true then Int.negOfNat k.natAbs else Int.ofNat k.natAbs) = k := by
      split
      · rename_i hsign
        have := of_decide_eq_true hsign
        rw [Int.negOfNat_eq]
        show -(k.natAbs : ℤ) = k
        omega
      · rename_i hsign
        exact Int.natAbs_of_nonneg (not_lt.1 fun h => hsign (decide_eq_true h))
    simp only [hexponent]
    unfold Float.Model.ofScientific
    rw [ofScientific_unpacked h hm hn hk hk' heq]
    exact holds_pack h hm

theorem holds_ofNat {n : ℕ} (hn : 0 < n) (hlt : n < 2 ^ 53) :
    ∃ m e, Holds (Float.ofNat n) m e ∧ magnitude m e = n := by
  obtain ⟨m, e, h, hm, heq⟩ := exists_canonical (e := 0) hn hlt (by decide) (by decide)
  rw [magnitude_zero_right] at heq
  refine ⟨m, e, holds_ofScientific (k := 0) h hm hn (by decide) (by omega) ?_, heq⟩
  rw [heq, zpow_zero, mul_one]

end SignalDesk.FloatValue
