import SignalDesk.Proofs.Float.Complement

/-!
# Positive floats

Sums of positive floats are positive, also where they overflow. Products and quotients of floats that
are neither very small nor very large are of that kind again.
-/

namespace SignalDesk.FloatValue

open Float.Model (UnpackedFloat Format)

section

variable {x y z : Float}

private theorem exists_compare {u v : UnpackedFloat} (hu : u.isNaN = false) (hv : v.isNaN = false) :
    ∃ order, u.compare v = some order := by
  cases u with
  | notANumber => cases hu
  | infinity s =>
    cases v with
    | notANumber => cases hv
    | infinity t => exact ⟨_, rfl⟩
    | zero t => cases s <;> exact ⟨_, rfl⟩
    | finite t m e hm => cases s <;> exact ⟨_, rfl⟩
  | zero s =>
    cases v with
    | notANumber => cases hv
    | infinity t => cases t <;> exact ⟨_, rfl⟩
    | zero t => exact ⟨_, rfl⟩
    | finite t m e hm => cases t <;> exact ⟨_, rfl⟩
  | finite s m e hm =>
    cases v with
    | notANumber => cases hv
    | infinity t => cases s <;> cases t <;> exact ⟨_, rfl⟩
    | zero t => cases s <;> exact ⟨_, rfl⟩
    | finite t m' e' hm' => cases s <;> cases t <;> exact ⟨_, rfl⟩

/-- Of two numbers, one is at most the other exactly when the other is not below it. -/
theorem float_not_lt_iff (hx : x.isNaN = false) (hy : y.isNaN = false) : ¬y < x ↔ x ≤ y := by
  obtain ⟨order, horder⟩ := exists_compare (u := x.toModel.unpack) (v := y.toModel.unpack) hx hy
  rw [le_iff_unpacked, lt_iff_unpacked, UnpackedFloat.le, UnpackedFloat.lt,
    compare_swap_unpacked x.toModel.unpack, horder]
  cases order <;> decide

theorem isNaN_of_pos (h : 0.0 < x) : x.isNaN = false := by
  have hzero : (0.0 : Float).toModel.unpack = .zero .positive := rfl
  rw [lt_iff_unpacked, hzero] at h
  show x.toModel.unpack.isNaN = false
  cases hu : x.toModel.unpack with
  | notANumber => rw [hu] at h; cases h
  | infinity s => rfl
  | zero s => rfl
  | finite s m e hm => rfl

theorem isNaN_of_neg (h : x < 0.0) : x.isNaN = false := by
  rw [← isNaN_neg]
  exact isNaN_of_pos (zero_lt_neg_iff.2 h)

private theorem unpack_pack_infinity :
    (Float.Model.pack (.infinity .positive)).unpack = .infinity .positive :=
  rfl

theorem isNaN_abs (h : x.isNaN = false) : x.abs.isNaN = false := by
  have hdefined : x.toModel.unpack.isNaN = false := h
  show (Float.Model.pack x.toModel.unpack.abs).unpack.isNaN = false
  cases hu : x.toModel.unpack with
  | notANumber => rw [hu] at hdefined; cases hdefined
  | infinity s =>
    show (Float.Model.pack (.infinity .positive)).unpack.isNaN = false
    rw [unpack_pack_infinity]
    rfl
  | zero s =>
    show (Float.Model.pack (.zero .positive)).unpack.isNaN = false
    rw [unpack_pack (u := .zero .positive) trivial]
    rfl
  | finite s m e hm =>
    have hfinite : x.isFinite = true := by
      show x.toModel.unpack.isFinite = true
      rw [hu]
      rfl
    have hregular := regular_unpack hfinite
    rw [hu] at hregular
    have habs : Regular (.finite .positive m e hm) := hregular
    show (Float.Model.pack (.finite .positive m e hm)).unpack.isNaN = false
    rw [unpack_pack habs]
    rfl

private theorem unpack_of_ge (hx : x.isFinite = true) (hle : x ≤ y) (hy : y.isFinite ≠ true) :
    y.toModel.unpack = .infinity .positive := by
  obtain ⟨s, hbeyond⟩ := exists_beyond hy
  cases s with
  | negative => exact absurd hle (not_le_beyond hx hbeyond)
  | positive => exact hbeyond.resolve_left fun hnan => not_le_beyond hx (.inl hnan) hle

private theorem pos_of_unpack (hx : x.toModel.unpack = .infinity .positive) : 0.0 < x := by
  have hzero : (0.0 : Float).toModel.unpack = .zero .positive := rfl
  rw [lt_iff_unpacked, hx, hzero]
  rfl

theorem pos_of_le (hx : x.isFinite = true) (hpos : 0.0 < x) (hle : x ≤ y) : 0.0 < y := by
  by_cases hy : y.isFinite = true
  · rw [le_iff hx hy] at hle
    rw [lt_iff isFinite_zero hx] at hpos
    rw [lt_iff isFinite_zero hy]
    exact hpos.trans_le hle
  · exact pos_of_unpack (unpack_of_ge hx hle hy)

theorem add_pos (hx : 0.0 ≤ x) (hy : y.isFinite = true) (hpos : 0.0 < y) : 0.0 < x + y := by
  by_cases hfinite : x.isFinite = true
  · refine pos_of_le hy hpos ((places_add hfinite hy).ge y hy ?_)
    rw [le_iff isFinite_zero hfinite, value_zero] at hx
    linarith
  · have hregular := regular_unpack hy
    have hinfinite := unpack_of_ge isFinite_zero hx hfinite
    have hsum : UnpackedFloat.add .binary64 x.toModel.unpack y.toModel.unpack =
        .infinity .positive := by
      rw [hinfinite]
      cases hu : y.toModel.unpack with
      | notANumber => rw [hu] at hregular; exact hregular.elim
      | infinity s => rw [hu] at hregular; exact hregular.elim
      | zero s => rfl
      | finite s m e hm => rfl
    apply pos_of_unpack
    show (Float.Model.pack
      (UnpackedFloat.add .binary64 x.toModel.unpack y.toModel.unpack)).unpack = _
    rw [hsum, unpack_pack_infinity]

end

theorem places_toFloat (n : UInt64) : Places n.toFloat n.toNat := by
  have hplaces := places_normalize n.toNat 0
  rwa [zpow_zero, mul_one, Int.cast_natCast] at hplaces

private theorem places_ofScientific {n : ℕ} (hn : 0 < n) :
    Places ⟨Float.Model.pack (UnpackedFloat.ofScientific .binary64 n 0)⟩ n := by
  have hbits : (2 : ℤ) ^ Format.binary64.exponentBits = 2048 := rfl
  have hlong : 2 ^ 52 ≤ n <<< Format.binary64.mantissaBits * 10 ^ (0 : ℤ).toNat := by
    rw [Nat.shiftLeft_eq, Int.toNat_zero, pow_zero, mul_one]
    show 2 ^ 52 ≤ n * 2 ^ 53
    omega
  have hvalue : (n : ℚ) =
      signed .positive (magnitude (n <<< Format.binary64.mantissaBits) (-Format.binary64.mantissaBits)) *
        signed .positive (magnitude (10 ^ (0 : ℤ).toNat) 0) := by
    rw [signed, signed, magnitude_lengthened, Int.toNat_zero, magnitude_zero_right, pow_zero,
      Nat.cast_one, mul_one]
  unfold UnpackedFloat.ofScientific
  rw [dif_neg hn.ne', hbits, if_neg (by decide), if_neg (by omega), if_pos le_rfl, hvalue]
  exact places_mul_finite _ _ _ _ (le_target_of_normal hlong)

theorem places_ofNat (n : ℕ) : Places (Float.ofNat n) n := by
  by_cases hsmall : n < 2 ^ 53
  · rcases n.eq_zero_or_pos with rfl | hn
    · exact .of_eq isFinite_zero (by rw [Nat.cast_zero]; exact value_zero)
    · obtain ⟨m, e, hwhole, hvalue⟩ := holds_ofNat hn hsmall
      exact .of_eq hwhole.finite (by rw [hwhole.value_eq, hvalue])
  · have hread : Float.ofNat n = ⟨Float.Model.pack (UnpackedFloat.ofScientific .binary64 n 0)⟩ := by
      show Float.ofScientific n false 0 = _
      unfold Float.ofScientific
      rw [dif_neg (fun h => hsmall h.1)]
      rfl
    rw [hread]
    exact places_ofScientific (by omega)

theorem exists_two_zpow {e : ℤ} (hlow : -1022 ≤ e) (hhigh : e ≤ 971) :
    ∃ w : Float, w.isFinite = true ∧ value w = 2 ^ e := by
  obtain ⟨m, e', h, hm, heq⟩ := exists_canonical (n := 1) one_pos (by norm_num) hlow hhigh
  have hw := holds_pack h hm
  refine ⟨_, hw.finite, ?_⟩
  rw [hw.value_eq, heq, magnitude, Nat.cast_one, one_mul]

/-- A float that is neither very small nor very large. -/
structure Sizable (k : ℕ) (x : Float) : Prop where
  finite : x.isFinite = true
  ge : (2 ^ k)⁻¹ ≤ value x
  le : value x ≤ 2 ^ k

section

variable {j k : ℕ} {x y : Float} {v : ℚ}

theorem Places.between (h : Places x v) {low high : Float} (hlow : low.isFinite = true)
    (hhigh : high.isFinite = true) (hge : value low ≤ v) (hle : v ≤ value high) :
    x.isFinite = true ∧ value low ≤ value x ∧ value x ≤ value high := by
  have hxge := h.ge low hlow hge
  have hxle := h.le high hhigh hle
  have hx := isFinite_of_between hlow hhigh hxge hxle
  exact ⟨hx, (le_iff hlow hx).1 hxge, (le_iff hx hhigh).1 hxle⟩

theorem Places.sizable (h : Places x v) (hk : k ≤ 971) (hge : (2 ^ k)⁻¹ ≤ v) (hle : v ≤ 2 ^ k) :
    Sizable k x := by
  obtain ⟨low, hlow, hlowvalue⟩ := exists_two_zpow (e := -k) (by omega) (by omega)
  obtain ⟨high, hhigh, hhighvalue⟩ := exists_two_zpow (e := k) (by omega) (by omega)
  rw [zpow_neg, zpow_natCast] at hlowvalue
  rw [zpow_natCast] at hhighvalue
  have hbetween := h.between hlow hhigh (by rwa [hlowvalue]) (by rwa [hhighvalue])
  rw [hlowvalue, hhighvalue] at hbetween
  exact ⟨hbetween.1, hbetween.2.1, hbetween.2.2⟩

theorem Sizable.pos (h : Sizable k x) : 0 < value x :=
  lt_of_lt_of_le (by positivity) h.ge

theorem Sizable.mono (h : Sizable j x) (hle : j ≤ k) : Sizable k x := by
  have hpower : (2 : ℚ) ^ j ≤ 2 ^ k := pow_le_pow_right₀ one_le_two hle
  exact ⟨h.finite, (inv_anti₀ (by positivity) hpower).trans h.ge, h.le.trans hpower⟩

theorem sizable_one : Sizable 0 1.0 := by
  constructor <;> simp

theorem Sizable.mul (hx : Sizable j x) (hy : Sizable k y) (hroom : j + k ≤ 971) :
    Sizable (j + k) (x * y) := by
  refine (places_mul hx.finite hy.finite).sizable hroom ?_ ?_
  · rw [pow_add, mul_inv]
    exact mul_le_mul hx.ge hy.ge (by positivity) hx.pos.le
  · rw [pow_add]
    exact mul_le_mul hx.le hy.le hy.pos.le (by positivity)

theorem Sizable.div (hx : Sizable j x) (hy : Sizable k y) (hroom : j + k ≤ 971) :
    Sizable (j + k) (x / y) := by
  refine (places_div hx.finite hy.finite hy.pos.ne').sizable hroom ?_ ?_
  · rw [pow_add, mul_inv, div_eq_mul_inv]
    exact mul_le_mul hx.ge (inv_anti₀ hy.pos hy.le) (by positivity) hx.pos.le
  · have hinv : (value y)⁻¹ ≤ 2 ^ k := inv_le_of_inv_le₀ (by positivity) hy.ge
    rw [pow_add, div_eq_mul_inv]
    exact mul_le_mul hx.le hinv (inv_nonneg.2 hy.pos.le) (by positivity)

/-- A number of one or more, perhaps infinite, divided by a sizable one. -/
theorem exists_le_div (hx : 1.0 ≤ x) (hy : Sizable k y) (hk : k ≤ 971) :
    ∃ low, Sizable k low ∧ low ≤ x / y := by
  obtain ⟨low, hlow, hvalue⟩ := exists_two_zpow (e := -k) (by omega) (by omega)
  rw [zpow_neg, zpow_natCast] at hvalue
  have hsmall : ((2 : ℚ) ^ k)⁻¹ ≤ 2 ^ k := hy.ge.trans hy.le
  refine ⟨low, ⟨hlow, hvalue.ge, hvalue.le.trans hsmall⟩, ?_⟩
  by_cases hfinite : x.isFinite = true
  · rw [le_iff isFinite_one hfinite, value_one] at hx
    apply (places_div hfinite hy.finite hy.pos.ne').ge low hlow
    rw [hvalue, div_eq_mul_inv]
    calc ((2 : ℚ) ^ k)⁻¹ ≤ (value y)⁻¹ := inv_anti₀ hy.pos hy.le
      _ ≤ value x * (value y)⁻¹ := le_mul_of_one_le_left (inv_nonneg.2 hy.pos.le) hx
  · have hinfinite := unpack_of_ge isFinite_one hx hfinite
    obtain ⟨m, e, hdivisor, -⟩ := holds_of_value_pos hy.finite hy.pos
    have hquotient : UnpackedFloat.div .binary64 x.toModel.unpack y.toModel.unpack =
        .infinity .positive := by
      rw [hinfinite, hdivisor.unpack_eq]
      rfl
    apply le_of_unpack_infinity _ hlow
    show (Float.Model.pack
      (UnpackedFloat.div .binary64 x.toModel.unpack y.toModel.unpack)).unpack = _
    rw [hquotient, unpack_pack_infinity]

theorem Sizable.min_one (hx : Sizable k x) (hle : x ≤ y) : Sizable k (FloatOrder.min y 1.0) := by
  have hone : (1.0 : Float).isNaN = false := rfl
  have hpower : (1 : ℚ) ≤ 2 ^ k := one_le_pow₀ one_le_two
  simp only [FloatOrder.min, hone, Bool.or_false, decide_eq_true_iff]
  split
  · rename_i hlt
    have hy := isFinite_of_between hx.finite isFinite_one hle (float_le_of_lt hlt)
    rw [le_iff hx.finite hy] at hle
    rw [lt_iff hy isFinite_one, value_one] at hlt
    exact ⟨hy, hx.ge.trans hle, hlt.le.trans hpower⟩
  · refine ⟨isFinite_one, ?_, ?_⟩
    · rw [value_one]
      exact inv_le_one_of_one_le₀ hpower
    · rwa [value_one]

end

end SignalDesk.FloatValue
