import SignalDesk.Proofs.Float.Opposite

/-!
# Differences from a complement

Of two floats, each is compared with what the other leaves of a whole. Both comparisons ask whether
the two add up to more than the whole, so their answers never contradict each other, however the
differences are rounded.
-/

namespace SignalDesk.FloatValue

open Float.Model (UnpackedFloat Format)
open Float.Model.UnpackedFloat (Sign packComponents)

/-- A float that is not negative, not even a negative zero; it may be undefined. -/
def NonNegative (x : Float) : Prop := ∀ s, sign? x.toModel.unpack = some s → s = .positive

theorem nonNegative_of_sign {x : Float} (h : sign? x.toModel.unpack = some .positive) : NonNegative x :=
  fun _ hs => Option.some.inj (hs.symm.trans h)

private theorem sign?_packComponents (s : Sign) (exponent : BitVec 11) (mantissa : BitVec 52) :
    sign? (UnpackedFloat.unpack .binary64 (packComponents .binary64 s exponent mantissa)) = none ∨
      sign? (UnpackedFloat.unpack .binary64 (packComponents .binary64 s exponent mantissa)) =
        some s := by
  have hsign : Sign.ofBitVec s.toBitVec = s := by cases s <;> rfl
  have hunpack := sign?_unpack (packComponents .binary64 s exponent mantissa)
  rwa [UnpackedFloat.unpackSign_packComponents, hsign] at hunpack

private theorem sign?_pack (u : UnpackedFloat) :
    sign? (Float.Model.pack u).unpack = none ∨ sign? (Float.Model.pack u).unpack = sign? u := by
  show sign? (UnpackedFloat.unpack .binary64 (UnpackedFloat.pack .binary64 u)) = none ∨
    sign? (UnpackedFloat.unpack .binary64 (UnpackedFloat.pack .binary64 u)) = sign? u
  cases u with
  | notANumber => exact .inl rfl
  | infinity s => exact sign?_packComponents s _ _
  | zero s => exact sign?_packComponents s _ _
  | finite s m e hm =>
    unfold UnpackedFloat.pack
    simp only
    split
    · exact sign?_packComponents s _ _
    · split <;> exact sign?_packComponents s _ _

private theorem nonNegative_pack {u : UnpackedFloat} (h : ∀ s, sign? u = some s → s = .positive) :
    NonNegative ⟨Float.Model.pack u⟩ := by
  intro s hs
  rcases sign?_pack u with hsign | hsign
  · exact nomatch hsign.symm.trans hs
  · exact h s (hsign.symm.trans hs)

private theorem sign?_roundWithAccuracy (s : Sign) (m : ℕ) (e : ℤ)
    (accuracy : UnpackedFloat.Accuracy) :
    sign? (UnpackedFloat.roundWithAccuracy .binary64 s m e accuracy) = some s := by
  simp only [UnpackedFloat.roundWithAccuracy]
  split <;> rfl

/-- The sign of a result is that which `op` gives for the signs of the operands. -/
def SignedBy (op : Sign → Sign → Sign) (u v result : UnpackedFloat) : Prop :=
  sign? result = none ∨
    ∃ s t, sign? u = some s ∧ sign? v = some t ∧ sign? result = some (op s t)

private theorem signedBy_mul (u v : UnpackedFloat) :
    SignedBy (· * ·) u v (UnpackedFloat.mul .binary64 u v) := by
  cases u <;> cases v <;>
    first
    | exact .inl rfl
    | exact .inr ⟨_, _, rfl, rfl, rfl⟩
    | exact .inr ⟨_, _, rfl, rfl, sign?_roundWithAccuracy _ _ _ _⟩

private theorem signedBy_div (u v : UnpackedFloat) :
    SignedBy (· / ·) u v (UnpackedFloat.div .binary64 u v) := by
  cases u <;> cases v <;>
    first
    | exact .inl rfl
    | exact .inr ⟨_, _, rfl, rfl, rfl⟩
    | exact .inr ⟨_, _, rfl, rfl, sign?_roundWithAccuracy _ _ _ _⟩

section

variable {x y : Float}

theorem nonNegative_abs (x : Float) : NonNegative x.abs := by
  apply nonNegative_pack
  intro s hs
  cases hx : x.toModel.unpack <;> rw [hx] at hs <;> cases hs <;> rfl

theorem NonNegative.pack {op : Sign → Sign → Sign} (hop : op .positive .positive = .positive)
    (hx : NonNegative x) (hy : NonNegative y) {u : UnpackedFloat}
    (hu : SignedBy op x.toModel.unpack y.toModel.unpack u) : NonNegative ⟨Float.Model.pack u⟩ := by
  apply nonNegative_pack
  intro r hr
  rcases hu with h | ⟨s, t, hs, ht, h⟩
  · exact nomatch h.symm.trans hr
  · obtain rfl := hx s hs
    obtain rfl := hy t ht
    exact (Option.some.inj (hr.symm.trans h)).trans hop

theorem NonNegative.mul (hx : NonNegative x) (hy : NonNegative y) : NonNegative (x * y) :=
  hx.pack rfl hy (signedBy_mul _ _)

theorem NonNegative.div (hx : NonNegative x) (hy : NonNegative y) : NonNegative (x / y) :=
  hx.pack rfl hy (signedBy_div _ _)

theorem NonNegative.min (hx : NonNegative x) (hy : NonNegative y) :
    NonNegative (FloatOrder.min x y) := by
  unfold FloatOrder.min
  split
  · exact hx
  · exact hy

theorem NonNegative.not_lt_zero (h : NonNegative x) : ¬x < 0.0 := by
  have hzero : (0.0 : Float).toModel.unpack = .zero .positive := rfl
  unfold NonNegative at h
  rw [lt_iff_unpacked, hzero]
  cases hx : x.toModel.unpack with
  | notANumber => exact nofun
  | infinity s =>
    obtain rfl := h s (congrArg sign? hx)
    exact nofun
  | zero s => exact nofun
  | finite s m e hm =>
    obtain rfl := h s (congrArg sign? hx)
    exact nofun

end

section

variable {x y : Float}

private theorem undefined_mul_not_pos (h : x.toModel.unpack = .notANumber) (y : Float) :
    ¬0.0 < x * y := by
  have hmul : UnpackedFloat.mul .binary64 x.toModel.unpack y.toModel.unpack = .notANumber := by
    rw [h]
    cases y.toModel.unpack <;> rfl
  have hproduct : x * y = ⟨Float.Model.pack .notANumber⟩ :=
    congrArg (fun u => (⟨Float.Model.pack u⟩ : Float)) hmul
  rw [hproduct, lt_iff_unpacked]
  exact nofun

theorem sign_of_signum_mul_pos (hy : NonNegative y) (h : 0.0 < FloatOrder.signum x * y) :
    sign? x.toModel.unpack = some .positive := by
  cases hx : sign? x.toModel.unpack with
  | none =>
    have hundefined : x.toModel.unpack = .notANumber := by
      cases hu : x.toModel.unpack <;> rw [hu] at hx <;> first | rfl | cases hx
    have hsignum : FloatOrder.signum x = x := by
      rw [FloatOrder.signum, isNaN_eq, hx]
      rfl
    rw [hsignum] at h
    exact absurd h (undefined_mul_not_pos hundefined y)
  | some s =>
    cases s with
    | negative =>
      have hone : NonNegative 1.0 := nonNegative_of_sign rfl
      rw [signum_of_sign hx, unit, float_neg_mul, zero_lt_neg_iff] at h
      exact absurd h (hone.mul hy).not_lt_zero
    | positive => rfl

theorem pos_of_sign (h : sign? x.toModel.unpack = some .positive) (hne : x ≠ 0.0) : 0.0 < x := by
  have hzero : (0.0 : Float).toModel.unpack = .zero .positive := rfl
  rw [lt_iff_unpacked, hzero]
  cases hx : x.toModel.unpack with
  | notANumber => rw [hx] at h; cases h
  | infinity s =>
    rw [hx] at h
    cases h
    rfl
  | zero s =>
    rw [hx] at h
    cases h
    exact absurd (eq_of_unpack_eq (hx.trans hzero.symm)) hne
  | finite s m e hm =>
    rw [hx] at h
    cases h
    rfl

end

/-- A float that is infinite with the sign `s` or undefined. -/
def Beyond (s : Sign) (x : Float) : Prop :=
  x.toModel.unpack = .notANumber ∨ x.toModel.unpack = .infinity s

section

variable {s : Sign} {x y whole : Float}

theorem exists_beyond (h : x.isFinite ≠ true) : ∃ s, Beyond s x := by
  have hunpacked : x.toModel.unpack.isFinite ≠ true := h
  cases hx : x.toModel.unpack with
  | notANumber => exact ⟨.positive, .inl hx⟩
  | infinity s => exact ⟨s, .inr hx⟩
  | zero s => rw [hx] at hunpacked; exact absurd rfl hunpacked
  | finite s m e hm => rw [hx] at hunpacked; exact absurd rfl hunpacked

private theorem beyond_pack {u : UnpackedFloat} (h : u = .notANumber ∨ u = .infinity s) :
    Beyond s ⟨Float.Model.pack u⟩ := by
  rcases h with rfl | rfl
  · exact .inl rfl
  · right
    cases s <;> rfl

theorem Beyond.sub_left (h : Beyond s x) (y : Float) : Beyond s (x - y) := by
  apply beyond_pack
  rcases h with h | h <;> rw [h]
  · cases y.toModel.unpack <;> exact .inl rfl
  · cases y.toModel.unpack with
    | infinity t => cases s <;> cases t <;> first | exact .inl rfl | exact .inr rfl
    | notANumber => exact .inl rfl
    | zero t => exact .inr rfl
    | finite t m e hm => exact .inr rfl

theorem Beyond.neg (h : Beyond s x) : Beyond (-s) (-x) := by
  unfold Beyond
  rw [unpack_neg]
  rcases h with h | h <;> rw [h]
  · exact .inl rfl
  · exact .inr rfl

theorem Beyond.sub_right (h : Beyond s y) (x : Float) : Beyond (-s) (x - y) := by
  have hbeyond := h.sub_left x
  rcases (sub_opposite y x).cases with hneg | ⟨-, t, hzero⟩
  · rw [hneg]
    exact hbeyond.neg
  · rcases hbeyond with hbeyond | hbeyond <;> cases hbeyond.symm.trans hzero

theorem Beyond.not_pos (h : Beyond .negative x) : ¬0.0 < x := by
  have hzero : (0.0 : Float).toModel.unpack = .zero .positive := rfl
  rw [lt_iff_unpacked, hzero]
  rcases h with h | h <;> rw [h] <;> exact nofun

private theorem Beyond.not_neg (h : Beyond .positive x) : ¬x < 0.0 :=
  fun hneg => h.neg.not_pos (zero_lt_neg_iff.2 hneg)

theorem not_le_beyond (hx : x.isFinite = true) (h : Beyond .negative y) : ¬x ≤ y := by
  have hregular := regular_unpack hx
  rw [le_iff_unpacked]
  rcases h with h | h <;> rw [h]
  · cases x.toModel.unpack <;> exact nofun
  · cases hu : x.toModel.unpack with
    | notANumber => exact nofun
    | infinity t => rw [hu] at hregular; exact hregular.elim
    | zero t => exact nofun
    | finite t m e hm => cases t <;> exact nofun

private theorem not_beyond_le (hx : x.isFinite = true) (h : Beyond .positive y) : ¬y ≤ x :=
  fun hle => not_le_beyond (by rwa [isFinite_neg]) h.neg (float_neg_le_neg_iff.2 hle)

theorem sub_not_pos (hx : x.isFinite = true) (hle : x ≤ y) : ¬0.0 < x - y := by
  by_cases hy : y.isFinite = true
  · rw [le_iff hx hy] at hle
    apply float_not_lt_of_le
    apply (places_sub hx hy).le 0.0 isFinite_zero
    rw [value_zero]
    linarith
  · obtain ⟨s, hbeyond⟩ := exists_beyond hy
    cases s with
    | negative => exact absurd hle (not_le_beyond hx hbeyond)
    | positive => exact (hbeyond.sub_right x).not_pos

private theorem sub_not_neg (hx : x.isFinite = true) (hle : y ≤ x) : ¬x - y < 0.0 := by
  by_cases hy : y.isFinite = true
  · rw [le_iff hy hx] at hle
    apply float_not_lt_of_le
    apply (places_sub hx hy).ge 0.0 isFinite_zero
    rw [value_zero]
    linarith
  · obtain ⟨s, hbeyond⟩ := exists_beyond hy
    cases s with
    | negative => exact (hbeyond.sub_right x).not_neg
    | positive => exact absurd hle (not_beyond_le hx hbeyond)

/-- If `x` is above what `y` leaves of the whole, `y` is not below what `x` leaves of it. -/
theorem complement_not_contrary (hwhole : whole.isFinite = true) (h : 0.0 < x - (whole - y)) :
    ¬y - (whole - x) < 0.0 := by
  by_cases hx : x.isFinite = true
  · by_cases hy : y.isFinite = true
    · by_cases hle : value x ≤ value whole - value y
      · have hge : x ≤ whole - y := (places_sub hwhole hy).ge x hx hle
        exact absurd h (sub_not_pos hx hge)
      · apply sub_not_neg hy
        apply (places_sub hwhole hx).le y hy
        linarith
    · obtain ⟨s, hbeyond⟩ := exists_beyond hy
      cases s with
      | negative => exact absurd h ((hbeyond.sub_right whole).sub_right x).not_pos
      | positive => exact (hbeyond.sub_left (whole - x)).not_neg
  · obtain ⟨s, hbeyond⟩ := exists_beyond hx
    cases s with
    | negative => exact absurd h (hbeyond.sub_left (whole - y)).not_pos
    | positive => exact ((hbeyond.sub_right whole).sub_right y).not_neg

end

end SignalDesk.FloatValue
