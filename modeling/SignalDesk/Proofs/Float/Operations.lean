import SignalDesk.Proofs.Float.Rounding

/-!
# Sums, products and quotients

Each operation on finite floats yields the exact result but for one rounding, as long as the exact
result leaves room below the largest float.
-/

namespace SignalDesk.FloatValue

open Float.Model (UnpackedFloat Format totalExponent)
open Float.Model.UnpackedFloat (Sign Accuracy)

private theorem ofBitVec_toBitVec (s : Sign) : Sign.ofBitVec s.toBitVec = s := by
  cases s <;> rfl

private theorem unpack_pack_normal (s : Sign) {m : ℕ} {e : ℤ} (hm : 0 < m) (h : Canonical m e)
    (hnormal : 2 ^ 52 ≤ m) :
    UnpackedFloat.unpack .binary64 (UnpackedFloat.pack .binary64 (.finite s m e hm)) =
      .finite s m e hm := by
  obtain ⟨hlt, hge, hle, -⟩ := h
  have hlog : m.log2 + 1 = Format.binary64.mantissaBits := by
    rw [(Nat.log2_eq_iff hm.ne').2 ⟨hnormal, hlt⟩]
    rfl
  have hexponent : (e + Format.binary64.exponentBias +
      Format.binary64.mantissaBitsWithoutImplicit).toNat = (e + 1075).toNat := by
    show (e + (1023 : ℕ) + (52 : ℕ)).toNat = (e + 1075).toNat
    omega
  have hfits : ¬ 2 ^ Format.binary64.exponentBits ≤ (e + 1075).toNat + 1 := by
    show ¬ 2 ^ 11 ≤ (e + 1075).toNat + 1
    omega
  have hlast : BitVec.ofNat 11 (e + 1075).toNat ≠ -1#11 := by
    intro heq
    have := congrArg BitVec.toNat heq
    rw [BitVec.toNat_ofNat, show (-1#11).toNat = 2047 from rfl] at this
    omega
  have hfirst : BitVec.ofNat 11 (e + 1075).toNat ≠ 0#11 := by
    intro heq
    have := congrArg BitVec.toNat heq
    rw [BitVec.toNat_ofNat, BitVec.toNat_ofNat] at this
    omega
  have hmantissa : (1#1 ++ BitVec.ofNat 52 m).toNat = m := by
    rw [BitVec.toNat_append, ← Nat.shiftLeft_add_eq_or_of_lt (BitVec.ofNat 52 m).isLt,
      BitVec.toNat_ofNat, Nat.shiftLeft_eq, BitVec.toNat_ofNat]
    omega
  have hunbiased : ((BitVec.ofNat 11 (e + 1075).toNat).toNat : ℤ) - (Format.binary64.exponentBias +
      Format.binary64.mantissaBitsWithoutImplicit) = e := by
    show ((BitVec.ofNat 11 (e + 1075).toNat).toNat : ℤ) - ((1023 : ℕ) + (52 : ℕ)) = e
    rw [BitVec.toNat_ofNat]
    omega
  unfold UnpackedFloat.pack
  simp only [hexponent]
  rw [if_neg hfits, if_pos hlog]
  unfold UnpackedFloat.unpack
  simp only [UnpackedFloat.unpackMantissa_packComponents,
    UnpackedFloat.unpackExponent_packComponents, UnpackedFloat.unpackSign_packComponents,
    ofBitVec_toBitVec]
  rw [if_neg hlast, if_neg hfirst]
  simp only [hmantissa, hunbiased]

private theorem unpack_pack_subnormal (s : Sign) {m : ℕ} (hm : 0 < m) (hlt : m < 2 ^ 52) :
    UnpackedFloat.unpack .binary64 (UnpackedFloat.pack .binary64 (.finite s m (-1074) hm)) =
      .finite s m (-1074) hm := by
  have hlog : m.log2 + 1 ≠ Format.binary64.mantissaBits := by
    have := (Nat.log2_lt hm.ne').2 hlt
    show m.log2 + 1 ≠ 53
    omega
  have hmantissa : (BitVec.ofNat 52 m).toNat = m := by
    rw [BitVec.toNat_ofNat]
    omega
  have hnonzero : BitVec.ofNat 52 m ≠ 0#52 := by
    intro heq
    have := congrArg BitVec.toNat heq
    rw [hmantissa] at this
    exact hm.ne' this
  have hfits : ¬ 2 ^ Format.binary64.exponentBits ≤ (-1074 + (Format.binary64.exponentBias : ℤ) +
      Format.binary64.mantissaBitsWithoutImplicit).toNat + 1 := by
    decide
  unfold UnpackedFloat.pack
  rw [if_neg hfits, if_neg hlog]
  unfold UnpackedFloat.unpack
  simp only [UnpackedFloat.unpackMantissa_packComponents,
    UnpackedFloat.unpackExponent_packComponents, UnpackedFloat.unpackSign_packComponents,
    ofBitVec_toBitVec]
  rw [if_neg (by decide), if_pos trivial, dif_neg hnonzero]
  simp only [hmantissa]
  rfl

theorem unpack_pack {u : UnpackedFloat} (h : Regular u) : (Float.Model.pack u).unpack = u := by
  show UnpackedFloat.unpack .binary64 (UnpackedFloat.pack .binary64 u) = u
  cases u with
  | notANumber => exact h.elim
  | infinity => exact h.elim
  | zero s => cases s <;> rfl
  | finite s m e hm =>
    have hcanonical : Canonical m e := h
    by_cases hnormal : 2 ^ 52 ≤ m
    · exact unpack_pack_normal s hm hcanonical hnormal
    · obtain rfl := hcanonical.normal.resolve_left hnormal
      exact unpack_pack_subnormal s hm (not_le.1 hnormal)

/-- A finite float close to `v`. -/
structure Near (x : Float) (v error : ℚ) : Prop where
  finite : x.isFinite = true
  near : |value x - v| ≤ error

theorem Near.mono {x : Float} {v error error' : ℚ} (h : Near x v error) (hle : error ≤ error') :
    Near x v error' :=
  ⟨h.finite, h.near.trans hle⟩

theorem Rounded.pack {u : UnpackedFloat} {v : ℚ} (h : Rounded u v) :
    Near ⟨Float.Model.pack u⟩ v (roundoff v) := by
  have hunpack := unpack_pack h.regular
  constructor
  · show (Float.Model.pack u).unpack.isFinite = true
    rw [hunpack]
    have hregular := h.regular
    cases u with
    | notANumber => exact hregular.elim
    | infinity => exact hregular.elim
    | zero => rfl
    | finite => rfl
  · show |ofUnpacked (Float.Model.pack u).unpack - v| ≤ roundoff v
    rw [hunpack]
    exact h.near

theorem Rounded.of_exact {u : UnpackedFloat} (h : Regular u) : Rounded u (ofUnpacked u) := by
  constructor
  · exact h
  · rw [sub_self, abs_zero]
    apply roundoff_nonneg

private theorem rounded_zero (s : Sign) : Rounded (.zero s) 0 := Rounded.of_exact trivial

theorem magnitude_mul (m m' : ℕ) (e e' : ℤ) :
    magnitude m e * magnitude m' e' = magnitude (m * m') (e + e') := by
  unfold magnitude
  rw [zpow_add₀ two_ne_zero]
  push_cast
  ring

theorem signed_mul (s t : Sign) (a b : ℚ) : signed s a * signed t b = signed (s * t) (a * b) := by
  cases s <;> cases t
  · exact neg_mul_neg a b
  · exact neg_mul a b
  · exact mul_neg a b
  · rfl

theorem le_target_of_normal {m : ℕ} {e : ℤ} (h : 2 ^ 52 ≤ m) : e ≤ target m e := by
  have hlog : 52 ≤ m.log2 := (Nat.le_log2 (by omega)).2 h
  unfold target
  omega

theorem Canonical.le_target_mul {m m' : ℕ} {e e' : ℤ} (h : Canonical m e) (h' : Canonical m' e')
    (hm : 0 < m) (hm' : 0 < m') : e + e' ≤ target (m * m') (e + e') := by
  rcases h.normal with hnormal | he
  · apply le_target_of_normal
    exact hnormal.trans (Nat.le_mul_of_pos_right m hm')
  · rcases h'.normal with hnormal' | he'
    · apply le_target_of_normal
      exact hnormal'.trans (Nat.le_mul_of_pos_left m' hm)
    · have := target_ge (m * m') (e + e')
      omega

private theorem rounded_mul {a b : UnpackedFloat} (ha : Regular a) (hb : Regular b)
    (hv : |ofUnpacked a * ofUnpacked b| ≤ largest) :
    Rounded (UnpackedFloat.mul .binary64 a b) (ofUnpacked a * ofUnpacked b) := by
  cases a with
  | notANumber => exact ha.elim
  | infinity => exact ha.elim
  | zero s =>
    have hzero : ofUnpacked (.zero s) * ofUnpacked b = 0 := zero_mul _
    rw [hzero]
    cases b with
    | notANumber => exact hb.elim
    | infinity => exact hb.elim
    | zero t => exact rounded_zero _
    | finite t m e hm => exact rounded_zero _
  | finite s m e hm =>
    cases b with
    | notANumber => exact hb.elim
    | infinity => exact hb.elim
    | zero t =>
      have hzero : ofUnpacked (.finite s m e hm) * ofUnpacked (.zero t) = 0 := mul_zero _
      rw [hzero]
      exact rounded_zero _
    | finite t m' e' hm' =>
      have hexact : ofUnpacked (.finite s m e hm) * ofUnpacked (.finite t m' e' hm') =
          signed (s * t) (magnitude (m * m') (e + e')) := by
        rw [← magnitude_mul, ← signed_mul]
        rfl
      rw [hexact] at hv ⊢
      rw [abs_signed] at hv
      apply rounded_exact
      · exact Canonical.le_target_mul ha hb hm hm'
      · exact (le_abs_self _).trans hv

theorem magnitude_shiftLeft (m k : ℕ) (e : ℤ) : magnitude (m <<< k) (e - k) = magnitude m e := by
  unfold magnitude
  rw [Nat.shiftLeft_eq, zpow_sub₀ two_ne_zero, zpow_natCast]
  push_cast
  field_simp

theorem log2_shiftLeft {m : ℕ} (hm : 0 < m) (k : ℕ) : (m <<< k).log2 = m.log2 + k := by
  rw [Nat.shiftLeft_eq, Nat.log2_eq_iff (by positivity)]
  constructor
  · rw [pow_add]
    exact Nat.mul_le_mul_right _ (Nat.log2_self_le hm.ne')
  · rw [add_right_comm, pow_add]
    exact Nat.mul_lt_mul_of_pos_right Nat.lt_log2_self (by positivity)

theorem target_shiftLeft {m : ℕ} (hm : 0 < m) (k : ℕ) (e : ℤ) :
    target (m <<< k) (e - k) = target m e := by
  unfold target
  rw [log2_shiftLeft hm]
  push_cast
  congr 1
  ring

private theorem rounded_round (s : Sign) {m : ℕ} {e : ℤ} (hm : 0 < m) (hv : magnitude m e ≤ largest) :
    Rounded (UnpackedFloat.round .binary64 s m e) (signed s (magnitude m e)) := by
  let k := (e - target m e).toNat
  have heq : UnpackedFloat.round .binary64 s m e =
      UnpackedFloat.roundWithAccuracy .binary64 s (m <<< k) (e - k) .exact := rfl
  rw [heq]
  rw [← magnitude_shiftLeft m k] at hv ⊢
  apply rounded_exact
  · rw [target_shiftLeft hm]
    show e - ((e - target m e).toNat : ℤ) ≤ target m e
    omega
  · exact hv

private theorem rounded_normalize {n : ℤ} {e : ℤ} (hv : |(n : ℚ) * 2 ^ e| ≤ largest) :
    Rounded (UnpackedFloat.normalize .binary64 n e .positive) (n * 2 ^ e) := by
  unfold UnpackedFloat.normalize
  rcases lt_trichotomy n 0 with h | rfl | h
  · rw [compare_lt_iff_lt.2 h]
    have hexact : (n : ℚ) * 2 ^ e = signed .negative (magnitude (-n).toNat e) := by
      have hcast : (((-n).toNat : ℤ) : ℚ) = ((-n : ℤ) : ℚ) := by
        rw [Int.toNat_of_nonneg (by omega)]
      show _ = -(((-n).toNat : ℚ) * 2 ^ e)
      rw [← Int.cast_natCast, hcast]
      push_cast
      ring
    rw [hexact] at hv ⊢
    rw [abs_signed] at hv
    exact rounded_round _ (by omega) ((le_abs_self _).trans hv)
  · rw [compare_eq_iff_eq.2 rfl, Int.cast_zero, zero_mul]
    exact rounded_zero _
  · rw [compare_gt_iff_gt.2 h]
    have hexact : (n : ℚ) * 2 ^ e = signed .positive (magnitude n.toNat e) := by
      have hcast : ((n.toNat : ℤ) : ℚ) = n := by
        rw [Int.toNat_of_nonneg h.le]
      show _ = (n.toNat : ℚ) * 2 ^ e
      rw [← Int.cast_natCast, hcast]
    rw [hexact] at hv ⊢
    rw [abs_signed] at hv
    exact rounded_round _ (by omega) ((le_abs_self _).trans hv)

theorem ofUnpacked_aligned (s : Sign) {m : ℕ} {e : ℤ} (hm : 0 < m) {e' : ℤ} (he : e' ≤ e) :
    ofUnpacked (.finite s m e hm) =
      (s.apply (m <<< (e - e').toNat : ℕ) : ℤ) * 2 ^ e' := by
  have hshift : e - ((e - e').toNat : ℤ) = e' := by omega
  have hmag := magnitude_shiftLeft m (e - e').toNat e
  rw [hshift] at hmag
  show signed s (magnitude m e) = _
  rw [← hmag]
  generalize m <<< (e - e').toNat = n
  cases s
  · show -((n : ℚ) * 2 ^ e') = ((-(n : ℤ) : ℤ) : ℚ) * 2 ^ e'
    push_cast
    ring
  · rfl

private theorem rounded_add {a b : UnpackedFloat} (ha : Regular a) (hb : Regular b)
    (hv : |ofUnpacked a + ofUnpacked b| ≤ largest) :
    Rounded (UnpackedFloat.add .binary64 a b) (ofUnpacked a + ofUnpacked b) := by
  cases a with
  | notANumber => exact ha.elim
  | infinity => exact ha.elim
  | zero s =>
    have hzero : ofUnpacked (.zero s) + ofUnpacked b = ofUnpacked b := zero_add _
    rw [hzero]
    cases b with
    | notANumber => exact hb.elim
    | infinity => exact hb.elim
    | zero t =>
      unfold UnpackedFloat.add
      simp only
      split <;> exact rounded_zero _
    | finite t m e hm => exact Rounded.of_exact hb
  | finite s m e hm =>
    cases b with
    | notANumber => exact hb.elim
    | infinity => exact hb.elim
    | zero t =>
      have hzero : ofUnpacked (.finite s m e hm) + ofUnpacked (.zero t) =
          ofUnpacked (.finite s m e hm) := add_zero _
      rw [hzero]
      exact Rounded.of_exact ha
    | finite t m' e' hm' =>
      rw [ofUnpacked_aligned s hm (min_le_left e e'), ofUnpacked_aligned t hm' (min_le_right e e'),
        ← add_mul, ← Int.cast_add] at hv ⊢
      exact rounded_normalize hv

theorem signed_div (s t : Sign) (a b : ℚ) : signed s a / signed t b = signed (s / t) (a / b) := by
  cases s <;> cases t
  · exact neg_div_neg_eq a b
  · exact neg_div b a
  · exact div_neg a
  · rfl

def quotientExponent (m : ℕ) (e : ℤ) (m' : ℕ) (e' : ℤ) : ℤ :=
  min (e - e') (max (m.log2 + 1 + e - (m'.log2 + 1 + e') - 53) (-1074))

theorem magnitude_div {m k m' : ℕ} {e e' t : ℤ} (hm' : 0 < m') (ht : e - e' = t + k) :
    magnitude m e / magnitude m' e' = (m <<< k : ℕ) / m' * 2 ^ t := by
  have hm' : (m' : ℚ) ≠ 0 := by exact_mod_cast hm'.ne'
  have hpower : (2 : ℚ) ^ e = 2 ^ t * 2 ^ k * 2 ^ e' := by
    rw [← zpow_natCast, ← zpow_add₀ two_ne_zero, ← zpow_add₀ two_ne_zero]
    congr 1
    omega
  unfold magnitude
  rw [hpower, Nat.shiftLeft_eq]
  push_cast
  field_simp

theorem quotient_bounds (n d : ℕ) (hd : 0 < d) :
    ((n / d : ℕ) : ℚ) ≤ n / d ∧ (n : ℚ) / d < (n / d : ℕ) + 1 := by
  have hpos : (0 : ℚ) < d := by exact_mod_cast hd
  rw [le_div_iff₀ hpos, div_lt_iff₀ hpos]
  constructor
  · exact_mod_cast Nat.div_mul_le_self n d
  · exact_mod_cast Nat.lt_mul_of_div_lt (Nat.lt_succ_self (n / d)) hd

/-- The quotient has all the bits that a float can hold. -/
theorem quotientExponent_le_target {m k m' : ℕ} {e e' : ℤ} (hm : 0 < m) (hm' : 0 < m')
    (ht : e - e' = quotientExponent m e m' e' + k) :
    quotientExponent m e m' e' ≤ target (m <<< k / m') (quotientExponent m e m' e') := by
  by_cases hsmall : quotientExponent m e m' e' ≤ -1074
  · exact hsmall.trans (target_ge _ _)
  · apply le_target_of_normal
    have hbits : m'.log2 + 53 ≤ m.log2 + k := by
      unfold quotientExponent at hsmall ht
      omega
    rw [Nat.le_div_iff_mul_le hm', Nat.shiftLeft_eq]
    calc 2 ^ 52 * m' ≤ 2 ^ 52 * 2 ^ (m'.log2 + 1) := by
          gcongr
          exact Nat.lt_log2_self.le
      _ = 2 ^ (m'.log2 + 53) := by rw [← pow_add]; congr 1; omega
      _ ≤ 2 ^ (m.log2 + k) := Nat.pow_le_pow_right two_pos hbits
      _ = 2 ^ m.log2 * 2 ^ k := pow_add _ _ _
      _ ≤ m * 2 ^ k := Nat.mul_le_mul_right _ (Nat.log2_self_le hm.ne')

private theorem rounded_div {a b : UnpackedFloat} (ha : Regular a) (hb : Regular b)
    (hnonzero : ofUnpacked b ≠ 0) (hv : |ofUnpacked a / ofUnpacked b| ≤ 2 ^ (1023 : ℤ)) :
    Rounded (UnpackedFloat.div .binary64 a b) (ofUnpacked a / ofUnpacked b) := by
  cases b with
  | notANumber => exact hb.elim
  | infinity => exact hb.elim
  | zero t => exact absurd rfl hnonzero
  | finite t m' e' hm' =>
    cases a with
    | notANumber => exact ha.elim
    | infinity => exact ha.elim
    | zero s =>
      have hzero : ofUnpacked (.zero s) / ofUnpacked (.finite t m' e' hm') = 0 := zero_div _
      rw [hzero]
      exact rounded_zero _
    | finite s m e hm =>
      let k := (e - e' - quotientExponent m e m' e').toNat
      have ht : e - e' = quotientExponent m e m' e' + k := by
        have : quotientExponent m e m' e' ≤ e - e' := min_le_left _ _
        omega
      have hexact : ofUnpacked (.finite s m e hm) / ofUnpacked (.finite t m' e' hm') =
          signed (s / t) ((m <<< k : ℕ) / m' * 2 ^ quotientExponent m e m' e') := by
        rw [← magnitude_div hm' ht, ← signed_div]
        rfl
      have heq : UnpackedFloat.div .binary64 (.finite s m e hm) (.finite t m' e' hm') =
          UnpackedFloat.roundWithAccuracy .binary64 (s / t) (m <<< k / m') (quotientExponent m e m' e')
            (UnpackedFloat.accuracyOfFraction (m <<< k % m') m') := rfl
      rw [hexact] at hv ⊢
      rw [abs_signed] at hv
      have hpos : (0 : ℚ) < 2 ^ quotientExponent m e m' e' := by positivity
      obtain ⟨hfloor, hceil⟩ := quotient_bounds (m <<< k) m' hm'
      rw [heq]
      apply rounded_inexact
      · exact quotientExponent_le_target hm hm' ht
      · exact mul_le_mul_of_nonneg_right hfloor hpos.le
      · unfold magnitude
        push_cast
        exact mul_lt_mul_of_pos_right hceil hpos
      · exact (le_abs_self _).trans hv

section

variable {x y : Float} (hx : x.isFinite = true) (hy : y.isFinite = true)

include hx hy

omit hy in
theorem abs_value_le : |value x| ≤ largest := by
  have hregular := regular_unpack hx
  unfold value
  cases hu : x.toModel.unpack with
  | notANumber => rw [hu] at hregular; exact hregular.elim
  | infinity => rw [hu] at hregular; exact hregular.elim
  | zero => simp [ofUnpacked, largest, magnitude_nonneg]
  | finite s m e hm =>
    rw [hu] at hregular
    show |signed s (magnitude m e)| ≤ largest
    rw [abs_signed, abs_of_nonneg (magnitude_nonneg m e)]
    exact Canonical.magnitude_le hregular

theorem near_add (hv : |value x + value y| ≤ largest) :
    Near (x + y) (value x + value y) (roundoff (value x + value y)) :=
  (rounded_add (regular_unpack hx) (regular_unpack hy) hv).pack

theorem near_mul (hv : |value x * value y| ≤ largest) :
    Near (x * y) (value x * value y) (roundoff (value x * value y)) :=
  (rounded_mul (regular_unpack hx) (regular_unpack hy) hv).pack

theorem near_div (hnonzero : value y ≠ 0) (hv : |value x / value y| ≤ 2 ^ (1023 : ℤ)) :
    Near (x / y) (value x / value y) (roundoff (value x / value y)) :=
  (rounded_div (regular_unpack hx) (regular_unpack hy) hnonzero hv).pack

end

end SignalDesk.FloatValue
