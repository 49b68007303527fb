import SignalDesk.Market.Contracts
import SignalDesk.Proofs.Float.Words

/-!
# The side of a float

A product of a magnitude and a sign lies on the side of the sign or nowhere, and a difference is above
zero only if its operands are in that order. Nothing is asked of the operands, which may be infinite or
undefined.
-/

namespace SignalDesk.FloatValue

open Float.Model (UnpackedFloat)

section

variable {x y : Float}

theorem nonNegative_of_not_le_zero (h : ¬x ≤ 0.0) : NonNegative x := by
  have hzero : (0.0 : Float).toModel.unpack = .zero .positive := rfl
  rw [le_iff_unpacked, hzero] at h
  intro s hs
  cases s with
  | positive => rfl
  | negative =>
    refine absurd ?_ h
    cases hu : x.toModel.unpack with
    | notANumber => rw [hu] at hs; cases hs
    | infinity t => rw [hu] at hs; cases hs; rfl
    | zero t => rfl
    | finite t m e hm => rw [hu] at hs; cases hs; rfl

theorem Places.nonNegative {v : ℚ} (h : Places x v) (hv : 1 ≤ v) : NonNegative x := by
  have hone : (1.0 : Float) ≤ x := h.ge 1.0 isFinite_one (by rwa [value_one])
  have hpos := pos_of_le isFinite_one (by rw [lt_iff isFinite_zero isFinite_one]; simp) hone
  exact nonNegative_of_not_le_zero fun hle => float_not_lt_of_le hle hpos

theorem nonNegative_ofNat (n : ℕ) : NonNegative (Float.ofNat n) := by
  rcases n.eq_zero_or_pos with rfl | hn
  · exact nonNegative_of_sign rfl
  · exact (places_ofNat n).nonNegative (by exact_mod_cast hn)

theorem nonNegative_toFloat (n : UInt64) : NonNegative n.toFloat := by
  rcases n.toNat.eq_zero_or_pos with hzero | hn
  · obtain rfl : n = 0 := UInt64.toNat_inj.1 hzero
    exact nonNegative_of_sign rfl
  · exact (places_toFloat n).nonNegative (by exact_mod_cast hn)

private theorem nonNegative_or_zero (h : ¬x < 0.0) : NonNegative x ∨ x = -0.0 := by
  have hzero : (0.0 : Float).toModel.unpack = .zero .positive := rfl
  have hnegzero : (-0.0 : Float).toModel.unpack = .zero .negative := rfl
  rw [lt_iff_unpacked, hzero] at h
  cases hu : x.toModel.unpack with
  | notANumber => exact .inl fun s hs => by rw [hu] at hs; cases hs
  | infinity s =>
    cases s with
    | positive => exact .inl (nonNegative_of_sign (congrArg sign? hu))
    | negative => rw [hu] at h; exact absurd rfl h
  | zero s =>
    cases s with
    | positive => exact .inl (nonNegative_of_sign (congrArg sign? hu))
    | negative => exact .inr (eq_of_unpack_eq (hu.trans hnegzero.symm))
  | finite s m e hm =>
    cases s with
    | positive => exact .inl (nonNegative_of_sign (congrArg sign? hu))
    | negative => rw [hu] at h; exact absurd rfl h

theorem not_clamp_lt_zero (x : Float) : ¬FloatOrder.clamp 0.0 1.0 x < 0.0 := by
  have hone : ¬(1.0 : Float) < 0.0 := (nonNegative_of_sign rfl).not_lt_zero
  have hzero : ¬(0.0 : Float) < 0.0 := (nonNegative_of_sign rfl).not_lt_zero
  unfold FloatOrder.clamp
  split
  · exact hzero
  · split
    · exact hone
    · rename_i h _
      exact h

theorem not_one_mul_lt_zero (h : ¬x < 0.0) : ¬1.0 * x < 0.0 := by
  rcases nonNegative_or_zero h with hx | rfl
  · exact ((nonNegative_of_sign rfl : NonNegative 1.0).mul hx).not_lt_zero
  · decide +kernel

theorem side_of_signum_mul (hy : NonNegative y) (hx : (x == 0.0) ≠ true) :
    (0.0 < FloatOrder.signum x * y → 0.0 < x) ∧ (FloatOrder.signum x * y < 0.0 → x < 0.0) := by
  have hpos {x : Float} (hx : (x == 0.0) ≠ true) (h : 0.0 < FloatOrder.signum x * y) : 0.0 < x := by
    apply pos_of_sign (sign_of_signum_mul_pos hy h)
    rintro rfl
    exact hx rfl
  refine ⟨hpos hx, fun h => ?_⟩
  rw [← zero_lt_neg_iff] at h ⊢
  rw [← float_neg_mul, ← signum_neg] at h
  exact hpos (by rwa [neg_beq_zero]) h

private theorem Opposite.pos_of_neg (h : Opposite x y) (hneg : x < 0.0) : 0.0 < y := by
  rcases h.cases with rfl | ⟨-, s, hzero⟩
  · exact zero_lt_neg_iff.2 hneg
  · have hpositive : (0.0 : Float).toModel.unpack = .zero .positive := rfl
    rw [lt_iff_unpacked, hzero, hpositive] at hneg
    cases hneg

private theorem unpack_of_isNaN (h : x.isNaN = true) : x.toModel.unpack = .notANumber := by
  have hundefined : x.toModel.unpack.isNaN = true := h
  cases hu : x.toModel.unpack with
  | notANumber => rfl
  | infinity s => rw [hu] at hundefined; cases hundefined
  | zero s => rw [hu] at hundefined; cases hundefined
  | finite s m e hm => rw [hu] at hundefined; cases hundefined

private theorem lt_infinity (hx : x.toModel.unpack = .infinity .positive) (hy : ¬Beyond .positive y) :
    y < x := by
  rw [lt_iff_unpacked, hx]
  cases hu : y.toModel.unpack with
  | notANumber => exact absurd (.inl hu) hy
  | infinity s =>
    cases s with
    | positive => exact absurd (.inr hu) hy
    | negative => rfl
  | zero s => cases s <;> rfl
  | finite s m e hm => cases s <;> rfl

theorem float_lt_of_sub_pos (h : 0.0 < x - y) : y < x := by
  have hx : ¬Beyond .negative x := fun hbeyond => (hbeyond.sub_left y).not_pos h
  have hy : ¬Beyond .positive y := fun hbeyond => (hbeyond.sub_right x).not_pos h
  by_cases hfinite : x.isFinite = true
  · have hnan : y.isNaN = false := by
      rw [Bool.eq_false_iff]
      exact fun hnan => hy (.inl (unpack_of_isNaN hnan))
    by_contra hlt
    exact sub_not_pos hfinite ((float_not_lt_iff (isNaN_of_isFinite hfinite) hnan).1 hlt) h
  · obtain ⟨s, hbeyond⟩ := exists_beyond hfinite
    cases s with
    | negative => exact absurd hbeyond hx
    | positive => exact lt_infinity (hbeyond.resolve_left fun hnan => hx (.inl hnan)) hy

theorem float_lt_of_sub_neg (h : x - y < 0.0) : x < y :=
  float_lt_of_sub_pos ((sub_opposite x y).pos_of_neg h)

private theorem nonNegative_of_value_pos (hx : x.isFinite = true) (hpos : 0 < value x) :
    NonNegative x := by
  apply nonNegative_of_not_le_zero
  rw [le_iff hx isFinite_zero, value_zero, not_le]
  exact hpos

theorem pos_of_div_pos (hy : y.isFinite = true) (hpos : 0 < value y) (h : 0.0 < x / y) : 0.0 < x := by
  by_contra hx
  rw [← neg_lt_zero_iff] at hx
  rcases nonNegative_or_zero hx with hneg | hzero
  · have hquotient := (hneg.div (nonNegative_of_value_pos hy hpos)).not_lt_zero
    rw [float_neg_div, neg_lt_zero_iff] at hquotient
    exact hquotient h
  · obtain rfl : x = 0.0 := by rw [← float_neg_neg x, hzero, float_neg_neg]
    refine float_not_lt_of_le ?_ h
    apply (places_div isFinite_zero hy hpos.ne').le 0.0 isFinite_zero
    rw [value_zero, zero_div]

theorem neg_of_div_neg (hy : y.isFinite = true) (hpos : 0 < value y) (h : x / y < 0.0) : x < 0.0 := by
  rw [← zero_lt_neg_iff] at h ⊢
  rw [← float_neg_div] at h
  exact pos_of_div_pos hy hpos h

end

end SignalDesk.FloatValue

namespace SignalDesk.Side

open FloatValue

variable {side : Side} {x : Float} {weight : Side → Float}

theorem eq_yes_of_pos (hopposite : weight .no = -weight .yes) (hyes : ¬weight .yes < 0.0)
    (h : 0.0 < weight side) : side = .yes := by
  cases side with
  | yes => rfl
  | no =>
    rw [hopposite, zero_lt_neg_iff] at h
    exact absurd h hyes

theorem eq_no_of_neg (hyes : ¬weight .yes < 0.0) (h : weight side < 0.0) : side = .no := by
  cases side with
  | yes => exact absurd h hyes
  | no => rfl

end SignalDesk.Side
