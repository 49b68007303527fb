import SignalDesk.Proofs.Float.Negation

/-!
# Results among the floats

A rounded sum, product or quotient is on the same side of every finite float as the exact one. So a
difference has the sign of the exact difference, and a sum that a float can hold is exact.
-/

namespace SignalDesk.FloatValue

open Float.Model (UnpackedFloat Format)
open Float.Model.UnpackedFloat (Sign Accuracy)

/-- A mantissa that stands for `v`, of which a fraction has been cut off already unless it is exact. -/
structure Stands (m : ℕ) (e : ℤ) (accuracy : Accuracy) (v : ℚ) : Prop where
  ge : magnitude m e ≤ v
  lt : v < magnitude (m + 1) e
  exact : v = magnitude m e → accuracy = .exact

theorem stands_exact (m : ℕ) (e : ℤ) : Stands m e .exact (magnitude m e) :=
  ⟨le_rfl, magnitude_lt_succ m e, fun _ => rfl⟩

section

variable {m k m' : ℕ} {e e' : ℤ} {accuracy : Accuracy} {v : ℚ} (hk : target m e = e + k)
  (h : Canonical m' e')

include hk

private theorem two_zpow_target : (2 : ℚ) ^ target m e = 2 ^ k * 2 ^ e := by
  rw [hk, zpow_add₀ two_ne_zero, zpow_natCast, mul_comm]

omit hk in
private theorem magnitude_cut_ge (accuracy : Accuracy) :
    magnitude (m / 2 ^ k) (target m e) ≤ magnitude (cut m k accuracy) (target m e) := by
  have hlow : ((m / 2 ^ k : ℕ) : ℚ) ≤ cut m k accuracy := by
    exact_mod_cast (cut_bounds m k accuracy).1
  exact mul_le_mul_of_nonneg_right hlow (zpow_nonneg two_pos.le _)

private theorem magnitude_div_le : magnitude (m / 2 ^ k) (target m e) ≤ magnitude m e := by
  have hfloor : ((m / 2 ^ k : ℕ) : ℚ) * 2 ^ k ≤ m := by
    exact_mod_cast Nat.div_mul_le_self m (2 ^ k)
  unfold magnitude
  rw [two_zpow_target hk, ← mul_assoc]
  gcongr

include h

private theorem Canonical.magnitude_lt_div (hlt : e' < target m e) :
    magnitude m' e' < magnitude (m / 2 ^ k) (target m e) := by
  have hnormal : target m e ≠ -1074 := by
    have := h.exponent_ge
    omega
  have hm : 2 ^ 52 ≤ m / 2 ^ k := by
    rw [Nat.le_div_iff_mul_le (by positivity), ← pow_add]
    exact two_pow_le_of_target hk hnormal
  have hm' : (m' : ℚ) < 2 ^ 53 := by exact_mod_cast h.mantissa_lt
  have hcast : (2 : ℚ) ^ 52 ≤ (m / 2 ^ k : ℕ) := by exact_mod_cast hm
  have hstep : (2 : ℚ) ^ (e' + 1) ≤ 2 ^ target m e := zpow_le_zpow_right₀ one_le_two (by omega)
  calc magnitude m' e' < 2 ^ 53 * 2 ^ e' := by unfold magnitude; gcongr
    _ = 2 ^ 52 * 2 ^ (e' + 1) := by rw [zpow_add_one₀ two_ne_zero]; ring
    _ ≤ 2 ^ 52 * 2 ^ target m e := by gcongr
    _ ≤ magnitude (m / 2 ^ k) (target m e) := by unfold magnitude; gcongr

omit h in
private theorem exists_multiple (hge : target m e ≤ e') :
    ∃ n : ℕ, magnitude m' e' = magnitude n (target m e) ∧ magnitude m' e' = magnitude (n * 2 ^ k) e := by
  obtain ⟨j, hj⟩ := Int.eq_ofNat_of_zero_le (sub_nonneg.2 hge)
  have hexponent : e' = target m e + j := by omega
  have hfirst : magnitude m' e' = magnitude (m' * 2 ^ j) (target m e) := by
    unfold magnitude
    rw [hexponent, zpow_add₀ two_ne_zero, zpow_natCast]
    push_cast
    ring
  refine ⟨m' * 2 ^ j, hfirst, ?_⟩
  rw [hfirst]
  unfold magnitude
  rw [two_zpow_target hk]
  push_cast
  ring

private theorem Canonical.le_cut (hv : Stands m e accuracy v) (hle : magnitude m' e' ≤ v) :
    magnitude m' e' ≤ magnitude (cut m k accuracy) (target m e) := by
  refine le_trans ?_ (magnitude_cut_ge accuracy)
  rcases lt_or_ge e' (target m e) with hlt | hge
  · exact (h.magnitude_lt_div hk hlt).le
  · obtain ⟨n, hunits, hbits⟩ := exists_multiple hk hge
    have hbelow := hle.trans_lt hv.lt
    rw [hbits] at hbelow
    have hn : n * 2 ^ k ≤ m := by
      unfold magnitude at hbelow
      exact Nat.le_of_lt_succ (by exact_mod_cast lt_of_mul_lt_mul_right hbelow (zpow_nonneg two_pos.le e))
    have hfloor : (n : ℚ) ≤ (m / 2 ^ k : ℕ) := by
      exact_mod_cast (Nat.le_div_iff_mul_le (by positivity)).2 hn
    rw [hunits]
    exact mul_le_mul_of_nonneg_right hfloor (zpow_nonneg two_pos.le _)

theorem Canonical.cut_le (hv : Stands m e accuracy v) (hle : v ≤ magnitude m' e') :
    magnitude (cut m k accuracy) (target m e) ≤ magnitude m' e' := by
  rcases lt_or_ge e' (target m e) with hlt | hge
  · exact absurd ((magnitude_div_le hk).trans (hv.ge.trans hle))
      (not_le.2 (h.magnitude_lt_div hk hlt))
  · obtain ⟨n, hunits, hbits⟩ := exists_multiple hk hge
    rw [hbits] at hle
    have hn : m ≤ n * 2 ^ k := by
      have habove := hv.ge.trans hle
      unfold magnitude at habove
      exact_mod_cast le_of_mul_le_mul_right habove (zpow_pos two_pos e)
    have hcut : cut m k accuracy ≤ n := by
      rcases hn.lt_or_eq with hlt | rfl
      · have hfloor : m / 2 ^ k < n := (Nat.div_lt_iff_lt_mul (by positivity)).2 hlt
        have := (cut_bounds m k accuracy).2
        omega
      · -- nothing has been cut off yet
        rw [hv.exact (le_antisymm hle hv.ge), cut_mul_two_pow]
    rw [hunits]
    exact mul_le_mul_of_nonneg_right (by exact_mod_cast hcut) (zpow_nonneg two_pos.le _)

end

/-- A float that stands where `v` does among the finite floats. -/
structure Places (x : Float) (v : ℚ) : Prop where
  ge : ∀ w : Float, w.isFinite = true → value w ≤ v → w ≤ x
  le : ∀ w : Float, w.isFinite = true → v ≤ value w → x ≤ w

theorem Places.of_eq {x : Float} {v : ℚ} (hx : x.isFinite = true) (hv : value x = v) : Places x v where
  ge w hw hle := by rwa [le_iff hw hx, hv]
  le w hw hle := by rwa [le_iff hx hw, hv]

theorem Places.value_eq {x w : Float} {v : ℚ} (h : Places x v) (hw : w.isFinite = true)
    (hv : value w = v) : x.isFinite = true ∧ value x = v := by
  have hge := h.ge w hw hv.le
  have hle := h.le w hw hv.ge
  have hx := isFinite_of_between hw hw hge hle
  rw [le_iff hw hx, hv] at hge
  rw [le_iff hx hw, hv] at hle
  exact ⟨hx, le_antisymm hle hge⟩

private theorem abs_value_cases {w : Float} (hw : w.isFinite = true) :
    value w = 0 ∨ ∃ m e, Canonical m e ∧ |value w| = magnitude m e := by
  have hregular := regular_unpack hw
  unfold value
  cases hu : w.toModel.unpack with
  | notANumber => rw [hu] at hregular; exact hregular.elim
  | infinity => rw [hu] at hregular; exact hregular.elim
  | zero s => exact .inl rfl
  | finite s m e hm =>
    rw [hu] at hregular
    refine .inr ⟨m, e, hregular, ?_⟩
    show |signed s (magnitude m e)| = magnitude m e
    rw [abs_signed, abs_of_nonneg (magnitude_nonneg m e)]

section

variable {m k : ℕ} {e : ℤ} {accuracy : Accuracy} {v : ℚ} (hk : target m e = e + k)
  (hv : Stands m e accuracy v) {w : Float} (hw : w.isFinite = true)

include hk hv hw

private theorem abs_value_le_cut (hle : |value w| ≤ v) :
    |value w| ≤ magnitude (cut m k accuracy) (target m e) := by
  rcases abs_value_cases hw with hzero | ⟨m', e', h, hvalue⟩
  · rw [hzero, abs_zero]
    exact magnitude_nonneg _ _
  · rw [hvalue] at hle ⊢
    exact h.le_cut hk hv hle

private theorem cut_le_abs_value (hpos : 0 < v) (hle : v ≤ |value w|) :
    magnitude (cut m k accuracy) (target m e) ≤ |value w| := by
  rcases abs_value_cases hw with hzero | ⟨m', e', h, hvalue⟩
  · rw [hzero, abs_zero] at hle
    exact absurd hpos (not_lt.2 hle)
  · rw [hvalue] at hle ⊢
    exact h.cut_le hk hv hle

end

private theorem unpack_pack_overflow (s : Sign) {m : ℕ} {e : ℤ} (hm : 0 < m) (he : 972 ≤ e) :
    (Float.Model.pack (.finite s m e hm)).unpack = .infinity s := by
  show UnpackedFloat.unpack .binary64 (UnpackedFloat.pack .binary64 (.finite s m e hm)) = _
  have hhuge : 2 ^ Format.binary64.exponentBits ≤ (e + Format.binary64.exponentBias +
      Format.binary64.mantissaBitsWithoutImplicit).toNat + 1 := by
    show 2 ^ 11 ≤ (e + (1023 : ℕ) + (52 : ℕ)).toNat + 1
    omega
  unfold UnpackedFloat.pack
  rw [if_pos hhuge]
  cases s <;> rfl

/-- A rounding is the signed cut, or infinite beyond the largest float. -/
theorem pack_roundWithAccuracy_cases (s : Sign) {m k : ℕ} {e : ℤ} {accuracy : Accuracy} {v : ℚ}
    (hk : target m e = e + k) (hv : Stands m e accuracy v) :
    let x : Float := ⟨Float.Model.pack (UnpackedFloat.roundWithAccuracy .binary64 s m e accuracy)⟩
    (x.isFinite = true ∧ value x = signed s (magnitude (cut m k accuracy) (target m e))) ∨
      (x.toModel.unpack = .infinity s ∧ largest < v) := by
  intro x
  have hround := roundWithAccuracy_settled s hk accuracy
  by_cases hfits : magnitude (cut m k accuracy) (target m e) < 2 ^ (1024 : ℤ)
  · have hregular := regular_ofMantissa s (canonical_settled hk accuracy hfits)
    rw [← hround] at hregular
    refine .inl ⟨(Rounded.of_exact hregular).pack.finite, ?_⟩
    show ofUnpacked (Float.Model.pack _).unpack = _
    rw [unpack_pack hregular, hround, ofUnpacked_ofMantissa, magnitude_settled]
  · have hlast : Canonical (2 ^ 53 - 1) 971 := by
      constructor <;> norm_num
    have hlarge : largest < v :=
      not_le.1 fun hle => hfits ((hlast.cut_le hk hv hle).trans_lt largest_lt)
    refine .inr ⟨?_, hlarge⟩
    have hmantissa := settled_lt (cut_le hk accuracy) (target m e)
    rw [← magnitude_settled] at hfits
    show (Float.Model.pack _).unpack = _
    rw [hround]
    generalize settled (cut m k accuracy) (target m e) = pair at hfits hmantissa
    have hpos : pair.1 ≠ 0 := by
      intro hzero
      apply hfits
      rw [hzero, magnitude, Nat.cast_zero, zero_mul]
      positivity
    have hexponent : 972 ≤ pair.2 := by
      by_contra hsmall
      have hle : pair.2 ≤ 971 := by omega
      rcases hle.lt_or_eq with hlt | heq
      · exact hfits (magnitude_lt_of_exponent_lt hmantissa.le hlt)
      · rw [heq] at hfits
        exact hfits (magnitude_lt_of_mantissa_lt hmantissa)
    rw [ofMantissa, dif_neg hpos]
    exact unpack_pack_overflow s _ hexponent

private theorem le_signed (s : Sign) {q a b : ℚ} (ha : 0 < a) (hb : 0 ≤ b) (hlow : |q| ≤ a → |q| ≤ b)
    (hhigh : a ≤ |q| → b ≤ |q|) (h : q ≤ signed s a) : q ≤ signed s b := by
  cases s with
  | negative =>
    have hneg : q ≤ -a := h
    rw [abs_of_neg (by linarith)] at hhigh
    show q ≤ -b
    linarith [hhigh (by linarith)]
  | positive =>
    show q ≤ b
    rcases le_or_gt q 0 with hq | hq
    · exact hq.trans hb
    · rw [abs_of_pos hq] at hlow
      exact hlow h

private theorem signed_neg (s : Sign) (q : ℚ) : signed (-s) q = -signed s q := by
  cases s
  · exact (neg_neg q).symm
  · rfl

private theorem signed_le (s : Sign) {q a b : ℚ} (ha : 0 < a) (hb : 0 ≤ b) (hlow : |q| ≤ a → |q| ≤ b)
    (hhigh : a ≤ |q| → b ≤ |q|) (h : signed s a ≤ q) : signed s b ≤ q := by
  rw [← neg_le_neg_iff, ← signed_neg] at h ⊢
  exact le_signed (-s) ha hb (by rwa [abs_neg]) (by rwa [abs_neg]) h

theorem le_of_unpack_infinity {x w : Float} (hx : x.toModel.unpack = .infinity .positive)
    (hw : w.isFinite = true) : w ≤ x := by
  have hregular := regular_unpack hw
  rw [le_iff_unpacked, hx]
  cases hu : w.toModel.unpack with
  | notANumber => rw [hu] at hregular; exact hregular.elim
  | infinity => rw [hu] at hregular; exact hregular.elim
  | zero s => rfl
  | finite s m e hm => cases s <;> rfl

private theorem ge_of_unpack_infinity {x w : Float} (hx : x.toModel.unpack = .infinity .negative)
    (hw : w.isFinite = true) : x ≤ w := by
  have hneg : (-x).toModel.unpack = .infinity .positive := by
    rw [unpack_neg, hx]
    rfl
  exact float_neg_le_neg_iff.1 (le_of_unpack_infinity hneg (by rwa [isFinite_neg]))

private theorem places_roundWithAccuracy (s : Sign) {m : ℕ} {e : ℤ} {accuracy : Accuracy} {v : ℚ}
    (he : e ≤ target m e) (hv : Stands m e accuracy v) (hpos : 0 < v) :
    Places ⟨Float.Model.pack (UnpackedFloat.roundWithAccuracy .binary64 s m e accuracy)⟩
      (signed s v) := by
  obtain ⟨k, hk⟩ := exists_shift he
  have hnonneg := magnitude_nonneg (cut m k accuracy) (target m e)
  rcases pack_roundWithAccuracy_cases s hk hv with ⟨hfinite, hvalue⟩ | ⟨hunpack, hlarge⟩
  · constructor
    · intro w hw hle
      rw [le_iff hw hfinite, hvalue]
      exact le_signed s hpos hnonneg (abs_value_le_cut hk hv hw) (cut_le_abs_value hk hv hw hpos) hle
    · intro w hw hle
      rw [le_iff hfinite hw, hvalue]
      exact signed_le s hpos hnonneg (abs_value_le_cut hk hv hw) (cut_le_abs_value hk hv hw hpos) hle
  · -- no finite float is beyond what overflows
    constructor
    · intro w hw hle
      have hbound := neg_le_of_abs_le (abs_value_le hw)
      cases s with
      | positive => exact le_of_unpack_infinity hunpack hw
      | negative =>
        have hneg : value w ≤ -v := hle
        linarith
    · intro w hw hle
      have hbound := le_of_abs_le (abs_value_le hw)
      cases s with
      | positive =>
        have hge : v ≤ value w := hle
        linarith
      | negative => exact ge_of_unpack_infinity hunpack hw

private theorem places_round (s : Sign) {m : ℕ} {e : ℤ} (hm : 0 < m) :
    Places ⟨Float.Model.pack (UnpackedFloat.round .binary64 s m e)⟩ (signed s (magnitude m e)) := by
  let k := (e - target m e).toNat
  have heq : UnpackedFloat.round .binary64 s m e =
      UnpackedFloat.roundWithAccuracy .binary64 s (m <<< k) (e - k) .exact := rfl
  have hshift : 0 < m <<< k := by
    rw [Nat.shiftLeft_eq]
    positivity
  rw [heq, ← magnitude_shiftLeft m k]
  apply places_roundWithAccuracy s _ (stands_exact _ _) (magnitude_pos hshift)
  rw [target_shiftLeft hm]
  show e - ((e - target m e).toNat : ℤ) ≤ target m e
  omega

theorem places_normalize (n e : ℤ) :
    Places ⟨Float.Model.pack (UnpackedFloat.normalize .binary64 n e .positive)⟩ (n * 2 ^ e) := by
  unfold UnpackedFloat.normalize
  rcases lt_trichotomy n 0 with h | rfl | h
  · rw [compare_lt_iff_lt.2 h]
    have hexact : (n : ℚ) * 2 ^ e = signed .negative (magnitude (-n).toNat e) := by
      have hcast : (((-n).toNat : ℤ) : ℚ) = ((-n : ℤ) : ℚ) := by
        rw [Int.toNat_of_nonneg (by omega)]
      show _ = -(((-n).toNat : ℚ) * 2 ^ e)
      rw [← Int.cast_natCast, hcast]
      push_cast
      ring
    rw [hexact]
    exact places_round _ (by omega)
  · rw [compare_eq_iff_eq.2 rfl, Int.cast_zero, zero_mul]
    show Places ⟨Float.Model.pack (.zero .positive)⟩ 0
    exact .of_eq isFinite_zero rfl
  · rw [compare_gt_iff_gt.2 h]
    have hexact : (n : ℚ) * 2 ^ e = signed .positive (magnitude n.toNat e) := by
      have hcast : ((n.toNat : ℤ) : ℚ) = n := by
        rw [Int.toNat_of_nonneg h.le]
      show _ = (n.toNat : ℚ) * 2 ^ e
      rw [← Int.cast_natCast, hcast]
    rw [hexact]
    exact places_round _ (by omega)

private theorem places_pack {u : UnpackedFloat} (h : Regular u) :
    Places ⟨Float.Model.pack u⟩ (ofUnpacked u) :=
  .of_eq (Rounded.of_exact h).pack.finite (congrArg ofUnpacked (unpack_pack h))

private theorem places_add_unpacked {a b : UnpackedFloat} (ha : Regular a) (hb : Regular b) :
    Places ⟨Float.Model.pack (UnpackedFloat.add .binary64 a b)⟩ (ofUnpacked a + ofUnpacked b) := by
  cases a with
  | notANumber => exact ha.elim
  | infinity => exact ha.elim
  | zero s =>
    have hzero : ofUnpacked (.zero s) + ofUnpacked b = ofUnpacked b := zero_add _
    rw [hzero]
    cases b with
    | notANumber => exact hb.elim
    | infinity => exact hb.elim
    | zero t =>
      unfold UnpackedFloat.add
      simp only
      split <;> exact places_pack trivial
    | finite t m e hm => exact places_pack hb
  | finite s m e hm =>
    cases b with
    | notANumber => exact hb.elim
    | infinity => exact hb.elim
    | zero t =>
      have hzero : ofUnpacked (.finite s m e hm) + ofUnpacked (.zero t) =
          ofUnpacked (.finite s m e hm) := add_zero _
      rw [hzero]
      exact places_pack ha
    | finite t m' e' hm' =>
      rw [ofUnpacked_aligned s hm (min_le_left e e'), ofUnpacked_aligned t hm' (min_le_right e e'),
        ← add_mul, ← Int.cast_add]
      exact places_normalize _ _

theorem places_mul_finite (s t : Sign) {m m' : ℕ} {e e' : ℤ} (hm : 0 < m) (hm' : 0 < m')
    (he : e + e' ≤ target (m * m') (e + e')) :
    Places ⟨Float.Model.pack (UnpackedFloat.mul .binary64 (.finite s m e hm) (.finite t m' e' hm'))⟩
      (signed s (magnitude m e) * signed t (magnitude m' e')) := by
  rw [signed_mul, magnitude_mul]
  exact places_roundWithAccuracy _ he (stands_exact _ _) (magnitude_pos (Nat.mul_pos hm hm'))

private theorem places_mul_unpacked {a b : UnpackedFloat} (ha : Regular a) (hb : Regular b) :
    Places ⟨Float.Model.pack (UnpackedFloat.mul .binary64 a b)⟩ (ofUnpacked a * ofUnpacked b) := by
  cases a with
  | notANumber => exact ha.elim
  | infinity => exact ha.elim
  | zero s =>
    have hzero : ofUnpacked (.zero s) * ofUnpacked b = 0 := zero_mul _
    rw [hzero]
    cases b with
    | notANumber => exact hb.elim
    | infinity => exact hb.elim
    | zero t => exact places_pack (u := .zero (s * t)) trivial
    | finite t m e hm => exact places_pack (u := .zero (s * t)) trivial
  | finite s m e hm =>
    cases b with
    | notANumber => exact hb.elim
    | infinity => exact hb.elim
    | zero t =>
      have hzero : ofUnpacked (.finite s m e hm) * ofUnpacked (.zero t) = 0 := mul_zero _
      rw [hzero]
      exact places_pack (u := .zero (s * t)) trivial
    | finite t m' e' hm' => exact places_mul_finite s t hm hm' (Canonical.le_target_mul ha hb hm hm')

private theorem stands_quotient (n : ℕ) {d : ℕ} (hd : 0 < d) (e : ℤ) :
    Stands (n / d) e (UnpackedFloat.accuracyOfFraction (n % d) d) (n / d * 2 ^ e) := by
  obtain ⟨hfloor, hceil⟩ := quotient_bounds n d hd
  have hunit : (0 : ℚ) < 2 ^ e := zpow_pos two_pos e
  constructor
  · exact mul_le_mul_of_nonneg_right hfloor hunit.le
  · unfold magnitude
    push_cast
    exact mul_lt_mul_of_pos_right hceil hunit
  · intro heq
    have hd : (d : ℚ) ≠ 0 := by exact_mod_cast hd.ne'
    have hwhole : (n : ℚ) = (n / d : ℕ) * d := (div_eq_iff hd).1 (mul_right_cancel₀ hunit.ne' heq)
    have hremainder : n % d = 0 := by
      have := Nat.div_add_mod' n d
      have : n = n / d * d := by exact_mod_cast hwhole
      omega
    rw [hremainder]
    rfl

private theorem places_div_unpacked {a b : UnpackedFloat} (ha : Regular a) (hb : Regular b)
    (hnonzero : ofUnpacked b ≠ 0) :
    Places ⟨Float.Model.pack (UnpackedFloat.div .binary64 a b)⟩ (ofUnpacked a / ofUnpacked b) := by
  cases b with
  | notANumber => exact hb.elim
  | infinity => exact hb.elim
  | zero t => exact absurd rfl hnonzero
  | finite t m' e' hm' =>
    cases a with
    | notANumber => exact ha.elim
    | infinity => exact ha.elim
    | zero s =>
      have hzero : ofUnpacked (.zero s) / ofUnpacked (.finite t m' e' hm') = 0 := zero_div _
      rw [hzero]
      exact places_pack (u := .zero (s / t)) trivial
    | finite s m e hm =>
      let k := (e - e' - quotientExponent m e m' e').toNat
      have ht : e - e' = quotientExponent m e m' e' + k := by
        have : quotientExponent m e m' e' ≤ e - e' := min_le_left _ _
        omega
      have hexact : ofUnpacked (.finite s m e hm) / ofUnpacked (.finite t m' e' hm') =
          signed (s / t) ((m <<< k : ℕ) / m' * 2 ^ quotientExponent m e m' e') := by
        rw [← magnitude_div hm' ht, ← signed_div]
        rfl
      rw [hexact]
      refine places_roundWithAccuracy _ (quotientExponent_le_target hm hm' ht)
        (stands_quotient _ hm' _) ?_
      rw [← magnitude_div hm' ht]
      exact div_pos (magnitude_pos hm) (magnitude_pos hm')

section

variable {x y : Float} (hx : x.isFinite = true) (hy : y.isFinite = true)

include hx hy

theorem places_add : Places (x + y) (value x + value y) :=
  places_add_unpacked (regular_unpack hx) (regular_unpack hy)

theorem places_sub : Places (x - y) (value x - value y) := by
  have hneg : (-y).isFinite = true := by rw [isFinite_neg, hy]
  rw [float_sub_eq, sub_eq_add_neg, ← value_neg]
  exact places_add hx hneg

theorem places_mul : Places (x * y) (value x * value y) :=
  places_mul_unpacked (regular_unpack hx) (regular_unpack hy)

theorem places_div (hnonzero : value y ≠ 0) : Places (x / y) (value x / value y) :=
  places_div_unpacked (regular_unpack hx) (regular_unpack hy) hnonzero

end

end SignalDesk.FloatValue
