import SignalDesk.FloatOrder
import SignalDesk.Proofs.Float.Exact
import SignalDesk.Proofs.Float.Monotone

/-!
# Signs of floats

Two floats are opposite if one is the negation of the other, or if both are zeros. A difference and
the difference taken the other way round are opposite, also where they are rounded, infinite or
undefined, and so are quotients of opposite floats.
-/

namespace SignalDesk.FloatValue

open Float.Model (UnpackedFloat Format)
open Float.Model.UnpackedFloat (Sign)

def Opposite (x y : Float) : Prop := y = -x ∨ (x == 0.0) = true ∧ (y == 0.0) = true

section

variable {x y : Float}

theorem unpack_of_beq_zero (h : (x == 0.0) = true) : ∃ s, x.toModel.unpack = .zero s := by
  have hbeq : x.toModel.unpack.beq (.zero .positive) = true := h
  cases hx : x.toModel.unpack with
  | notANumber => rw [hx] at hbeq; cases hbeq
  | infinity s => rw [hx] at hbeq; cases s <;> cases hbeq
  | zero s => exact ⟨s, rfl⟩
  | finite s m e hm => rw [hx] at hbeq; cases s <;> cases hbeq

theorem beq_zero_of_value (hx : x.isFinite = true) (hvalue : value x = 0) : (x == 0.0) = true := by
  show x.toModel.unpack.beq (.zero .positive) = true
  have hcompare := compare_eq hx isFinite_zero
  rw [hvalue, value_zero, compare_eq_iff_eq.2 rfl] at hcompare
  exact beq_iff_eq.2 hcompare

theorem Opposite.cases (h : Opposite x y) : y = -x ∨ y = x ∧ ∃ s, x.toModel.unpack = .zero s := by
  rcases h with h | ⟨hx, hy⟩
  · exact .inl h
  · obtain ⟨s, hx⟩ := unpack_of_beq_zero hx
    obtain ⟨t, hy⟩ := unpack_of_beq_zero hy
    by_cases hst : t = s
    · subst hst
      exact .inr ⟨eq_of_unpack_eq (hy.trans hx.symm), t, hx⟩
    · have hneg : t = -s := by cases s <;> cases t <;> first | rfl | exact absurd rfl hst
      refine .inl (eq_of_unpack_eq ?_)
      rw [unpack_neg, hx, hy, hneg]
      rfl

theorem opposite_neg (x : Float) : Opposite x (-x) := .inl rfl

theorem Opposite.abs (h : Opposite x y) : y.abs = x.abs := by
  rcases h.cases with rfl | ⟨rfl, -⟩
  · exact abs_float_neg x
  · rfl

private theorem zero_div_unpacked (s : Sign) (u : UnpackedFloat) :
    UnpackedFloat.div .binary64 (.zero s) u = .notANumber ∨
      ∃ t, UnpackedFloat.div .binary64 (.zero s) u = .zero t := by
  cases u with
  | notANumber => exact .inl rfl
  | infinity r => exact .inr ⟨_, rfl⟩
  | zero r => exact .inl rfl
  | finite r m e hm => exact .inr ⟨_, rfl⟩

/-- A zero divided by anything is a zero or else undefined, and so opposite to itself. -/
theorem Opposite.div (h : Opposite x y) (z : Float) : Opposite (x / z) (y / z) := by
  rcases h.cases with rfl | ⟨rfl, s, hzero⟩
  · exact .inl (float_neg_div x z)
  · have hquotient : y / z =
        ⟨Float.Model.pack (UnpackedFloat.div .binary64 (.zero s) z.toModel.unpack)⟩ := by
      rw [← hzero]
      rfl
    rw [hquotient]
    rcases zero_div_unpacked s z.toModel.unpack with h | ⟨t, h⟩
    · rw [h]
      exact .inl rfl
    · rw [h]
      exact .inr ⟨by cases t <;> rfl, by cases t <;> rfl⟩

private theorem Canonical.eq_of_magnitude_eq {m m' : ℕ} {e e' : ℤ} (h : Canonical m e)
    (h' : Canonical m' e') (heq : magnitude m e = magnitude m' e') : m = m' ∧ e = e' := by
  have hcompare := h.compare_eq h'
  rw [heq, compare_eq_iff_eq.2 rfl, Ordering.then_eq_eq, compare_eq_iff_eq, compare_eq_iff_eq]
    at hcompare
  exact hcompare.symm

private theorem eq_of_value_eq (hx : x.isFinite = true) (hy : y.isFinite = true)
    (h : value x = value y) (hne : value x ≠ 0) : x = y := by
  have hpositive {a b : Float} (ha : a.isFinite = true) (hb : b.isFinite = true)
      (hab : value a = value b) (hpos : 0 < value a) : a = b := by
    obtain ⟨m, e, hm, hmvalue⟩ := holds_of_value_pos ha hpos
    obtain ⟨n, k, hn, hnvalue⟩ := holds_of_value_pos hb (hab ▸ hpos)
    obtain ⟨rfl, rfl⟩ := hm.canonical.eq_of_magnitude_eq hn.canonical (by rw [← hmvalue, hab, hnvalue])
    exact hm.eq hn
  rcases hne.lt_or_gt with hneg | hpos
  · have hopposite : -x = -y := by
      apply hpositive (by rwa [isFinite_neg]) (by rwa [isFinite_neg])
      · rw [value_neg, value_neg, h]
      · rw [value_neg]
        linarith
    rw [← float_neg_neg x, hopposite, float_neg_neg]
  · exact hpositive hx hy h hpos

theorem opposite_of_values (hx : x.isFinite = true) (hy : y.isFinite = true)
    (h : value y = -value x) : Opposite x y := by
  by_cases hzero : value x = 0
  · refine .inr ⟨beq_zero_of_value hx hzero, beq_zero_of_value hy ?_⟩
    rw [h, hzero, neg_zero]
  · refine .inl (eq_of_value_eq hy (by rwa [isFinite_neg]) ?_ ?_)
    · rw [h, value_neg]
    · rwa [h, neg_ne_zero]

theorem abs_ofInt_neg (n : ℤ) : (Float.ofInt (-n)).abs = (Float.ofInt n).abs := by
  cases n with
  | ofNat n =>
    cases n with
    | zero => rfl
    | succ k => exact abs_float_neg (Float.ofNat (k + 1))
  | negSucc n => exact (abs_float_neg (Float.ofNat (n + 1))).symm

theorem Opposite.isFinite (h : Opposite x y) : y.isFinite = x.isFinite := by
  rcases h.cases with rfl | ⟨rfl, -⟩
  · exact isFinite_neg x
  · rfl

theorem Opposite.beq_zero (h : Opposite x y) : (y == 0.0) = (x == 0.0) := by
  rcases h with rfl | ⟨hx, hy⟩
  · exact neg_beq_zero x
  · rw [hx, hy]

private theorem beq_self_of_finite (hx : x.isFinite = true) : (x == x) = true := by
  have hcompare := compare_eq hx hx
  rw [compare_eq_iff_eq.2 rfl] at hcompare
  show x.toModel.unpack.beq x.toModel.unpack = true
  exact beq_iff_eq.2 hcompare

theorem value_eq_of_beq (hx : x.isFinite = true) (hy : y.isFinite = true) (h : (x == y) = true) :
    value x = value y := by
  have hbeq : x.toModel.unpack.beq y.toModel.unpack = true := h
  have hcompare := compare_eq hx hy
  rw [beq_iff_eq.1 hbeq, Option.some_inj, eq_comm, compare_eq_iff_eq] at hcompare
  exact hcompare

theorem Opposite.beq_neg (h : Opposite x y) (hx : x.isFinite = true) : (y == -x) = true := by
  rcases h.cases with rfl | ⟨rfl, s, hzero⟩
  · exact beq_self_of_finite (by rwa [isFinite_neg])
  · show y.toModel.unpack.beq (-y).toModel.unpack = true
    rw [unpack_neg, hzero]
    rfl

private theorem clamp_neg (hx : x.isFinite = true) :
    FloatOrder.clamp (-1.0) 1.0 (-x) = -FloatOrder.clamp (-1.0) 1.0 x := by
  have hlow : -x < -1.0 ↔ 1.0 < x := float_neg_lt_neg_iff
  have hhigh : 1.0 < -x ↔ x < -1.0 := by
    have h := float_neg_lt_neg_iff (x := -1.0) (y := x)
    rwa [float_neg_neg] at h
  simp only [FloatOrder.clamp, hlow, hhigh]
  by_cases hlarge : 1.0 < x
  · have hsmall : ¬x < -1.0 := by
      rw [lt_iff hx isFinite_neg_one, value_neg_one]
      rw [lt_iff isFinite_one hx, value_one] at hlarge
      linarith
    rw [if_pos hlarge, if_neg hsmall, if_pos hlarge]
  · rw [if_neg hlarge, if_neg hlarge]
    by_cases hsmall : x < -1.0
    · rw [if_pos hsmall, if_pos hsmall, float_neg_neg]
    · rw [if_neg hsmall, if_neg hsmall]

theorem Opposite.clamp (h : Opposite x y) (hx : x.isFinite = true) :
    Opposite (FloatOrder.clamp (-1.0) 1.0 x) (FloatOrder.clamp (-1.0) 1.0 y) := by
  rcases h.cases with rfl | ⟨rfl, s, hzero⟩
  · exact .inl (clamp_neg hx)
  · have hvalue : value y = 0 := by rw [value, hzero]; rfl
    have hclamp : FloatOrder.clamp (-1.0) 1.0 y = y := by
      rw [FloatOrder.clamp, if_neg, if_neg]
      · rw [lt_iff isFinite_one hx, value_one, hvalue]
        norm_num
      · rw [lt_iff hx isFinite_neg_one, value_neg_one, hvalue]
        norm_num
    rwa [hclamp]

private theorem round_neg (s : Sign) (m : ℕ) (e : ℤ) :
    UnpackedFloat.round .binary64 (-s) m e = (UnpackedFloat.round .binary64 s m e).neg :=
  roundWithAccuracy_neg _ _ _ _

private theorem normalize_neg {n : ℤ} (hn : n ≠ 0) (e : ℤ) (s : Sign) :
    UnpackedFloat.normalize .binary64 (-n) e s = (UnpackedFloat.normalize .binary64 n e s).neg := by
  unfold UnpackedFloat.normalize
  rcases lt_or_gt_of_ne hn with h | h
  · rw [compare_lt_iff_lt.2 h, compare_gt_iff_gt.2 (neg_pos.2 h)]
    exact round_neg .negative _ _
  · rw [compare_gt_iff_gt.2 h, compare_lt_iff_lt.2 (neg_neg_iff_pos.2 h), neg_neg]
    exact round_neg .positive _ _

private theorem sub_swap_unpacked (u v : UnpackedFloat) :
    UnpackedFloat.sub .binary64 v u = (UnpackedFloat.sub .binary64 u v).neg ∨
      UnpackedFloat.sub .binary64 u v = .zero .positive ∧
        UnpackedFloat.sub .binary64 v u = .zero .positive := by
  cases u with
  | notANumber => left; cases v <;> rfl
  | infinity s =>
    left
    cases v with
    | notANumber => rfl
    | infinity t => cases s <;> cases t <;> rfl
    | zero t => rfl
    | finite t m e hm => rfl
  | zero s =>
    cases v with
    | notANumber => left; rfl
    | infinity t => left; cases t <;> rfl
    | zero t => cases s <;> cases t <;> first | exact .inl rfl | exact .inr ⟨rfl, rfl⟩
    | finite t m e hm => left; cases t <;> rfl
  | finite s m e hm =>
    cases v with
    | notANumber => left; rfl
    | infinity t => left; cases t <;> rfl
    | zero t => left; rfl
    | finite t m' e' hm' =>
      simp only [UnpackedFloat.sub]
      rw [min_comm e' e]
      generalize s.apply _ = a
      generalize t.apply _ = b
      by_cases hab : a - b = 0
      · have hba : b - a = 0 := by omega
        rw [hab, hba]
        exact .inr ⟨rfl, rfl⟩
      · rw [← neg_sub a b]
        exact .inl (normalize_neg hab _ _)

theorem sub_opposite (x y : Float) : Opposite (x - y) (y - x) := by
  have hsub (a b : Float) : a - b =
      ⟨Float.Model.pack (UnpackedFloat.sub .binary64 a.toModel.unpack b.toModel.unpack)⟩ := rfl
  rw [hsub x y, hsub y x]
  rcases sub_swap_unpacked x.toModel.unpack y.toModel.unpack with h | ⟨h, h'⟩
  · rw [h]
    exact .inl (ofModel_pack_neg _)
  · rw [h, h']
    exact .inr ⟨rfl, rfl⟩

end

/-- The float in the middle of two whole numbers that add up to `n`. -/
def half (n : ℕ) : Float := Float.ofNat n / 2.0

theorem half_value {n : ℕ} (h : n < 2 ^ 53) : (half n).isFinite = true ∧ value (half n) = n / 2 := by
  rcases n.eq_zero_or_pos with rfl | hn
  · exact ⟨rfl, by rw [Nat.cast_zero, zero_div]; rfl⟩
  · obtain ⟨m, e, hwhole, hmvalue⟩ := holds_ofNat hn h
    obtain ⟨m', e', hm', hmpos', hmvalue'⟩ := exists_canonical (e := -1) hn h (by decide) (by decide)
    have htwo : Holds 2.0 (2 ^ 52) (-51) :=
      ⟨⟨by decide, by decide, by decide, .inl le_rfl⟩, by decide, rfl⟩
    have hhalf : (n : ℚ) / 2 = magnitude m' e' := by
      rw [hmvalue', magnitude, zpow_neg_one, div_eq_mul_inv]
    have hquotient : Holds (half n) m' e' := by
      apply hwhole.div htwo hm' hmpos'
      rw [hmvalue, ← hhalf]
      norm_num [magnitude]
    exact ⟨hquotient.finite, by rw [hquotient.value_eq, hhalf]⟩

theorem half_sub {a b : ℕ} (ha : a < 2 ^ 53) (hb : b < 2 ^ 53) :
    (half a - half b).isFinite = true ∧ value (half a - half b) = (a - b) / 2 := by
  obtain ⟨hafinite, havalue⟩ := half_value ha
  obtain ⟨hbfinite, hbvalue⟩ := half_value hb
  have hplaces := places_sub hafinite hbfinite
  have hexact : value (half a) - value (half b) = ((a : ℚ) - b) / 2 := by
    rw [havalue, hbvalue, sub_div]
  rw [hexact] at hplaces
  rcases le_total b a with hle | hle
  · obtain ⟨hfinite, hvalue⟩ := half_value (n := a - b) (by omega)
    apply hplaces.value_eq hfinite
    rw [hvalue, Nat.cast_sub hle]
  · obtain ⟨hfinite, hvalue⟩ := half_value (n := b - a) (by omega)
    apply hplaces.value_eq (w := -half (b - a))
    · rwa [isFinite_neg]
    · rw [value_neg, hvalue, Nat.cast_sub hle]
      ring

def sign? : UnpackedFloat → Option Sign
  | .notANumber => none
  | .infinity s => some s
  | .zero s => some s
  | .finite s _ _ _ => some s

theorem sign?_unpack (b : BitVec Format.binary64.numBits) :
    sign? (UnpackedFloat.unpack .binary64 b) = none ∨
      sign? (UnpackedFloat.unpack .binary64 b) =
        some (Sign.ofBitVec (UnpackedFloat.unpackSign b)) := by
  unfold UnpackedFloat.unpack
  simp only
  split
  · split
    · exact .inr rfl
    · exact .inl rfl
  · split
    · split <;> exact .inr rfl
    · exact .inr rfl

private theorem sign?_neg (u : UnpackedFloat) : sign? u.neg = (sign? u).map fun s => -s := by
  cases u <;> rfl

def unit : Sign → Float
  | .negative => -1.0
  | .positive => 1.0

private theorem unit_neg (s : Sign) : unit (-s) = -unit s := by
  cases s
  · exact (float_neg_neg 1.0).symm
  · rfl

theorem isNaN_eq (x : Float) : x.isNaN = (sign? x.toModel.unpack).isNone := by
  show x.toModel.unpack.isNaN = _
  cases x.toModel.unpack <;> rfl

theorem signum_of_sign {x : Float} {s : Sign} (h : sign? x.toModel.unpack = some s) :
    FloatOrder.signum x = unit s := by
  have hdefined : x.isNaN = false := by rw [isNaN_eq, h]; rfl
  have hbits := sign?_unpack x.toModel.toBits.toBitVec
  have hmodel : sign? (UnpackedFloat.unpack .binary64 x.toModel.toBits.toBitVec) = some s := h
  rw [hmodel, Option.some_inj] at hbits
  have hsign := isNegative_unpackSign x.toModel.toBits.toBitVec
  rw [← hbits.resolve_left nofun] at hsign
  have hbound : x.toBits.toNat < 2 ^ 64 := x.toBits.toNat_lt
  have hhalf : x.toBits < 0x8000000000000000 ↔ x.toBits.toNat < FloatText.signUnit :=
    UInt64.lt_iff_toNat_lt
  have hsign : isNegative s = (x.toBits.toNat / FloatText.signUnit == 1) := hsign
  unfold FloatOrder.signum
  rw [hdefined, if_neg nofun]
  unfold FloatText.signUnit at hsign hhalf
  cases s with
  | negative =>
    have hlarge := beq_iff_eq.1 hsign.symm
    rw [if_neg (mt hhalf.1 (by omega))]
    rfl
  | positive =>
    have hsmall := beq_eq_false_iff_ne.1 hsign.symm
    rw [if_pos (hhalf.2 (by omega))]
    rfl

theorem signum_neg (x : Float) : FloatOrder.signum (-x) = -FloatOrder.signum x := by
  cases h : sign? x.toModel.unpack with
  | none =>
    have hnan : x.isNaN = true := by rw [isNaN_eq, h]; rfl
    rw [FloatOrder.signum, FloatOrder.signum, isNaN_neg, hnan, if_pos rfl, if_pos rfl]
  | some s =>
    have hneg : sign? (-x).toModel.unpack = some (-s) := by rw [unpack_neg, sign?_neg, h]; rfl
    rw [signum_of_sign h, signum_of_sign hneg, unit_neg]

end SignalDesk.FloatValue
