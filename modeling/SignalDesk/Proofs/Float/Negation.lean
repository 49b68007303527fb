import SignalDesk.Proofs.Float.Bits

/-!
# Opposite floats

Negation flips the sign bit and rounding does not look at it. So magnitudes, products, quotients and
comparisons treat a float and its opposite alike, and a difference is the sum with the opposite.
-/

namespace SignalDesk.FloatValue

open Float.Model (UnpackedFloat Format)
open Float.Model.UnpackedFloat (Sign Accuracy packComponents)

private theorem neg_neg_sign (s : Sign) : - -s = s := by
  cases s <;> rfl

private theorem neg_mul_sign (s t : Sign) : -s * t = -(s * t) := by
  cases s <;> cases t <;> rfl

private theorem neg_div_sign (s t : Sign) : -s / t = -(s / t) := by
  cases s <;> cases t <;> rfl

private theorem apply_neg_sign (s : Sign) (n : ℤ) : (-s).apply n = -s.apply n := by
  cases s
  · exact (neg_neg n).symm
  · rfl

private theorem ofBitVec_neg (s : Sign) :
    Sign.ofBitVec (-s).toBitVec = -Sign.ofBitVec s.toBitVec := by
  cases s <;> rfl

private theorem neg_neg_unpacked (u : UnpackedFloat) : u.neg.neg = u := by
  cases u with
  | notANumber => rfl
  | infinity s => exact congrArg UnpackedFloat.infinity (neg_neg_sign s)
  | zero s => exact congrArg UnpackedFloat.zero (neg_neg_sign s)
  | finite s m e hm => simp only [UnpackedFloat.neg, neg_neg_sign]

private theorem ofUnpacked_neg (u : UnpackedFloat) : ofUnpacked u.neg = -ofUnpacked u := by
  cases u with
  | notANumber => exact neg_zero.symm
  | infinity s => exact neg_zero.symm
  | zero s => exact neg_zero.symm
  | finite s m e hm =>
    cases s
    · exact (neg_neg (magnitude m e)).symm
    · rfl

private theorem compare_swap_pair (m m' : ℕ) (e e' : ℤ) :
    ((compare e e').then (compare m m')).swap = (compare e' e).then (compare m' m) := by
  rw [Ordering.swap_then, ← Std.OrientedCmp.eq_swap, ← Std.OrientedCmp.eq_swap]

theorem compare_swap_unpacked (u v : UnpackedFloat) :
    v.compare u = (u.compare v).map Ordering.swap := by
  cases u with
  | notANumber => cases v <;> rfl
  | infinity s => cases s <;> rcases v with t | _ | t | t <;> first | rfl | (cases t <;> rfl)
  | zero s => rcases v with t | _ | t | t <;> first | rfl | (cases t <;> rfl)
  | finite s m e hm =>
    cases v with
    | notANumber => cases s <;> rfl
    | infinity t => cases s <;> cases t <;> rfl
    | zero t => cases s <;> rfl
    | finite t m' e' hm' =>
      cases s <;> cases t
      · exact congrArg (fun order => some order.swap) (compare_swap_pair m m' e e').symm
      · rfl
      · rfl
      · exact congrArg some (compare_swap_pair m m' e e').symm

private theorem compare_neg_unpacked (u v : UnpackedFloat) : u.neg.compare v.neg = v.compare u := by
  cases u with
  | notANumber => cases v <;> rfl
  | infinity s => cases s <;> rcases v with t | _ | t | t <;> first | rfl | (cases t <;> rfl)
  | zero s => rcases v with t | _ | t | t <;> first | rfl | (cases t <;> rfl)
  | finite s m e hm =>
    cases v with
    | notANumber => cases s <;> rfl
    | infinity t => cases s <;> cases t <;> rfl
    | zero t => cases s <;> rfl
    | finite t m' e' hm' =>
      cases s <;> cases t
      · refine congrArg some ?_
        rw [compare_swap_pair]
      · rfl
      · rfl
      · exact congrArg some (compare_swap_pair m m' e e')

theorem roundWithAccuracy_neg (s : Sign) (m : ℕ) (e : ℤ) (accuracy : Accuracy) :
    UnpackedFloat.roundWithAccuracy .binary64 (-s) m e accuracy =
      (UnpackedFloat.roundWithAccuracy .binary64 s m e accuracy).neg := by
  simp only [UnpackedFloat.roundWithAccuracy]
  split <;> rfl

private theorem mul_neg_unpacked (u v : UnpackedFloat) :
    UnpackedFloat.mul .binary64 u.neg v = (UnpackedFloat.mul .binary64 u v).neg := by
  cases u <;> cases v <;> simp only [UnpackedFloat.mul, UnpackedFloat.neg, neg_mul_sign]
  exact roundWithAccuracy_neg _ _ _ _

private theorem div_neg_unpacked (u v : UnpackedFloat) :
    UnpackedFloat.div .binary64 u.neg v = (UnpackedFloat.div .binary64 u v).neg := by
  cases u <;> cases v <;> simp only [UnpackedFloat.div, UnpackedFloat.neg, neg_div_sign]
  exact roundWithAccuracy_neg _ _ _ _

private theorem sub_unpacked (u v : UnpackedFloat) :
    UnpackedFloat.sub .binary64 u v = UnpackedFloat.add .binary64 u v.neg := by
  cases u <;> cases v <;>
    simp only [UnpackedFloat.sub, UnpackedFloat.add, UnpackedFloat.neg, apply_neg_sign, sub_eq_add_neg]

private theorem unpack_packComponents_neg (s : Sign) (exponent : BitVec 11) (mantissa : BitVec 52) :
    UnpackedFloat.unpack .binary64 (packComponents .binary64 (-s) exponent mantissa) =
      (UnpackedFloat.unpack .binary64 (packComponents .binary64 s exponent mantissa)).neg := by
  unfold UnpackedFloat.unpack
  simp only [UnpackedFloat.unpackMantissa_packComponents,
    UnpackedFloat.unpackExponent_packComponents, UnpackedFloat.unpackSign_packComponents,
    ofBitVec_neg]
  split
  · split <;> rfl
  · split
    · split <;> rfl
    · rfl

private theorem unpack_pack_neg (u : UnpackedFloat) :
    (Float.Model.pack u.neg).unpack = (Float.Model.pack u).unpack.neg := by
  show UnpackedFloat.unpack .binary64 (UnpackedFloat.pack .binary64 u.neg) =
    (UnpackedFloat.unpack .binary64 (UnpackedFloat.pack .binary64 u)).neg
  cases u with
  | notANumber => rfl
  | infinity s => exact unpack_packComponents_neg s _ _
  | zero s => exact unpack_packComponents_neg s _ _
  | finite s m e hm =>
    simp only [UnpackedFloat.neg, UnpackedFloat.pack]
    split
    · exact unpack_packComponents_neg s _ _
    · split <;> exact unpack_packComponents_neg s _ _

section

variable {x y : Float}

theorem unpack_neg (x : Float) : (-x).toModel.unpack = x.toModel.unpack.neg := by
  have h : (-x).toModel = Float.Model.pack x.toModel.unpack.neg := rfl
  rw [h, unpack_pack_neg, pack_unpack]

/-- An operation that turns opposites into opposites when unpacked does so when packed. -/
theorem ofModel_pack_neg (u : UnpackedFloat) :
    (⟨Float.Model.pack u.neg⟩ : Float) = -⟨Float.Model.pack u⟩ := by
  apply eq_of_unpack_eq
  rw [unpack_neg]
  exact unpack_pack_neg u

theorem float_neg_neg (x : Float) : - -x = x := by
  apply eq_of_unpack_eq
  rw [unpack_neg, unpack_neg, neg_neg_unpacked]

theorem abs_float_neg (x : Float) : (-x).abs = x.abs := by
  have habs : (-x).toModel.unpack.abs = x.toModel.unpack.abs := by
    rw [unpack_neg]
    cases x.toModel.unpack <;> rfl
  exact congrArg (fun u => (⟨Float.Model.pack u⟩ : Float)) habs

theorem float_neg_mul (x y : Float) : -x * y = -(x * y) := by
  have hmul : UnpackedFloat.mul .binary64 (-x).toModel.unpack y.toModel.unpack =
      (UnpackedFloat.mul .binary64 x.toModel.unpack y.toModel.unpack).neg := by
    rw [unpack_neg, mul_neg_unpacked]
  exact (congrArg (fun u => (⟨Float.Model.pack u⟩ : Float)) hmul).trans (ofModel_pack_neg _)

theorem float_neg_div (x y : Float) : -x / y = -(x / y) := by
  have hdiv : UnpackedFloat.div .binary64 (-x).toModel.unpack y.toModel.unpack =
      (UnpackedFloat.div .binary64 x.toModel.unpack y.toModel.unpack).neg := by
    rw [unpack_neg, div_neg_unpacked]
  exact (congrArg (fun u => (⟨Float.Model.pack u⟩ : Float)) hdiv).trans (ofModel_pack_neg _)

theorem float_sub_eq (x y : Float) : x - y = x + -y := by
  have hsub : UnpackedFloat.sub .binary64 x.toModel.unpack y.toModel.unpack =
      UnpackedFloat.add .binary64 x.toModel.unpack (-y).toModel.unpack := by
    rw [unpack_neg, sub_unpacked]
  exact congrArg (fun u => (⟨Float.Model.pack u⟩ : Float)) hsub

theorem isFinite_neg (x : Float) : (-x).isFinite = x.isFinite := by
  show (-x).toModel.unpack.isFinite = x.toModel.unpack.isFinite
  rw [unpack_neg]
  cases x.toModel.unpack <;> rfl

theorem isNaN_neg (x : Float) : (-x).isNaN = x.isNaN := by
  show (-x).toModel.unpack.isNaN = x.toModel.unpack.isNaN
  rw [unpack_neg]
  cases x.toModel.unpack <;> rfl

theorem value_neg (x : Float) : value (-x) = -value x := by
  unfold value
  rw [unpack_neg, ofUnpacked_neg]

theorem float_neg_lt_neg_iff : -x < -y ↔ y < x := by
  rw [lt_iff_unpacked, lt_iff_unpacked, UnpackedFloat.lt, UnpackedFloat.lt, unpack_neg, unpack_neg,
    compare_neg_unpacked]

theorem float_neg_le_neg_iff : -x ≤ -y ↔ y ≤ x := by
  rw [le_iff_unpacked, le_iff_unpacked, UnpackedFloat.le, UnpackedFloat.le, unpack_neg, unpack_neg,
    compare_neg_unpacked]

theorem float_le_of_lt (h : x < y) : x ≤ y := by
  rw [lt_iff_unpacked, UnpackedFloat.lt, beq_iff_eq] at h
  rw [le_iff_unpacked, UnpackedFloat.le, h]
  rfl

/-- This holds of infinite and undefined floats too. -/
theorem float_not_lt_of_le (h : x ≤ y) : ¬y < x := by
  rw [le_iff_unpacked, UnpackedFloat.le] at h
  rw [lt_iff_unpacked, UnpackedFloat.lt, compare_swap_unpacked x.toModel.unpack]
  revert h
  rcases x.toModel.unpack.compare y.toModel.unpack with _ | _ | _ | _ <;> decide

theorem zero_lt_neg_iff : 0.0 < -x ↔ x < 0.0 := by
  have hzero : (0.0 : Float).toModel.unpack = .zero .positive := rfl
  rw [lt_iff_unpacked, lt_iff_unpacked, unpack_neg, hzero]
  cases x.toModel.unpack with
  | notANumber => rfl
  | infinity s => cases s <;> rfl
  | zero s => rfl
  | finite s m e hm => cases s <;> rfl

theorem neg_lt_zero_iff : -x < 0.0 ↔ 0.0 < x := by
  rw [← zero_lt_neg_iff, float_neg_neg]

theorem neg_beq_zero (x : Float) : (-x == 0.0) = (x == 0.0) := by
  show (-x).toModel.unpack.beq (.zero .positive) = x.toModel.unpack.beq (.zero .positive)
  rw [unpack_neg]
  cases x.toModel.unpack with
  | notANumber => rfl
  | infinity s => cases s <;> rfl
  | zero s => rfl
  | finite s m e hm => cases s <;> rfl

end

end SignalDesk.FloatValue
