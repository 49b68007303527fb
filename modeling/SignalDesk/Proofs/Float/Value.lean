import Mathlib
import SignalDesk.FloatOrder

/-!
# The exact value of a float

A finite float denotes a rational number, its mantissa times a power of two. The comparisons of
finite floats are those of their values, since mantissa and exponent are chosen in one way only: the
mantissa has 53 bits unless the exponent is the smallest one.
-/

namespace SignalDesk.FloatValue

open Float.Model (UnpackedFloat Format)
open Float.Model.UnpackedFloat (Sign)

/-- The number that a mantissa and an exponent stand for. -/
def magnitude (m : ℕ) (e : ℤ) : ℚ := m * 2 ^ e

theorem magnitude_nonneg (m : ℕ) (e : ℤ) : 0 ≤ magnitude m e := by
  unfold magnitude
  positivity

theorem magnitude_pos {m : ℕ} {e : ℤ} (hm : 0 < m) : 0 < magnitude m e := by
  have : (0 : ℚ) < m := by exact_mod_cast hm
  unfold magnitude
  positivity

/-- The mantissas and exponents that finite floats have. -/
structure Canonical (m : ℕ) (e : ℤ) : Prop where
  mantissa_lt : m < 2 ^ 53
  exponent_ge : -1074 ≤ e
  exponent_le : e ≤ 971
  normal : 2 ^ 52 ≤ m ∨ e = -1074

theorem Canonical.magnitude_lt_of_exponent_lt {m m' : ℕ} {e e' : ℤ} (h : Canonical m e)
    (h' : Canonical m' e') (he : e < e') : magnitude m e < magnitude m' e' := by
  have hm : (m : ℚ) < 2 ^ 53 := by exact_mod_cast h.mantissa_lt
  have hm' : (2 : ℚ) ^ 52 ≤ m' := by
    have := h.exponent_ge
    exact_mod_cast h'.normal.resolve_right (by omega)
  have hstep : (2 : ℚ) ^ (e + 1) ≤ 2 ^ e' := zpow_le_zpow_right₀ one_le_two (by omega)
  calc magnitude m e < 2 ^ 53 * 2 ^ e := by unfold magnitude; gcongr
    _ = 2 ^ 52 * 2 ^ (e + 1) := by rw [zpow_add_one₀ two_ne_zero]; ring
    _ ≤ 2 ^ 52 * 2 ^ e' := by gcongr
    _ ≤ magnitude m' e' := by unfold magnitude; gcongr

/-- Exponents decide first, and mantissas only between equal exponents. -/
theorem Canonical.compare_eq {m m' : ℕ} {e e' : ℤ} (h : Canonical m e) (h' : Canonical m' e') :
    (compare e e').then (compare m m') = compare (magnitude m e) (magnitude m' e') := by
  rcases lt_trichotomy e e' with he | rfl | he
  · rw [compare_lt_iff_lt.2 he, compare_lt_iff_lt.2 (h.magnitude_lt_of_exponent_lt h' he)]
    rfl
  · rw [compare_eq_iff_eq.2 rfl]
    show compare m m' = _
    rcases lt_trichotomy m m' with hm | rfl | hm
    · have : magnitude m e < magnitude m' e := by unfold magnitude; gcongr
      rw [compare_lt_iff_lt.2 hm, compare_lt_iff_lt.2 this]
    · rw [compare_eq_iff_eq.2 rfl, compare_eq_iff_eq.2 rfl]
    · have : magnitude m' e < magnitude m e := by unfold magnitude; gcongr
      rw [compare_gt_iff_gt.2 hm, compare_gt_iff_gt.2 this]
  · rw [compare_gt_iff_gt.2 he, compare_gt_iff_gt.2 (h'.magnitude_lt_of_exponent_lt h he)]
    rfl

private theorem compare_neg_neg (a b : ℚ) : compare (-a) (-b) = (compare a b).swap := by
  rcases lt_trichotomy a b with h | rfl | h
  · rw [compare_lt_iff_lt.2 h, compare_gt_iff_gt.2 (neg_lt_neg h)]
    rfl
  · rw [compare_eq_iff_eq.2 rfl, compare_eq_iff_eq.2 rfl]
    rfl
  · rw [compare_gt_iff_gt.2 h, compare_lt_iff_lt.2 (neg_lt_neg h)]
    rfl

def signed : Sign → ℚ → ℚ
  | .positive, q => q
  | .negative, q => -q

/-- The value of an unpacked float. What is not finite has none and counts as zero. -/
def ofUnpacked : UnpackedFloat → ℚ
  | .finite s m e _ => signed s (magnitude m e)
  | _ => 0

/-- What a finite float unpacks to. -/
def Regular : UnpackedFloat → Prop
  | .zero _ => True
  | .finite _ m e _ => Canonical m e
  | _ => False

theorem canonical_of_unpack {b : BitVec Format.binary64.numBits} {s : Sign} {m : ℕ} {e : ℤ}
    {hm : 0 < m} (h : UnpackedFloat.unpack .binary64 b = .finite s m e hm) : Canonical m e := by
  have hexp : (UnpackedFloat.unpackExponent b).toNat < 2 ^ 11 :=
    (UnpackedFloat.unpackExponent b).isLt
  have hman : (UnpackedFloat.unpackMantissa b).toNat < 2 ^ 52 :=
    (UnpackedFloat.unpackMantissa b).isLt
  have hbias : Format.binary64.exponentBias = 1023 := rfl
  unfold UnpackedFloat.unpack at h
  simp only [hbias] at h
  split at h
  · split at h <;> cases h
  · rename_i hmax
    split at h
    · rename_i hzero
      -- without a leading bit
      have : (UnpackedFloat.unpackExponent b).toNat = 0 := congrArg BitVec.toNat hzero
      split at h
      · cases h
      · injection h with _ hm he
        constructor <;> omega
    · rename_i hzero
      have hlow : (UnpackedFloat.unpackExponent b).toNat ≠ 0 :=
        fun h0 => hzero (BitVec.eq_of_toNat_eq h0)
      have hhigh : (UnpackedFloat.unpackExponent b).toNat ≠ 2047 :=
        fun h1 => hmax (BitVec.eq_of_toNat_eq h1)
      have hlead : (1#1 ++ UnpackedFloat.unpackMantissa b).toNat =
          2 ^ 52 + (UnpackedFloat.unpackMantissa b).toNat := by
        rw [BitVec.toNat_append, ← Nat.shiftLeft_add_eq_or_of_lt hman]
        rfl
      injection h with _ hm he
      rw [hlead] at hm
      constructor <;> omega

private theorem compare_unpacked {a b : UnpackedFloat} (ha : Regular a) (hb : Regular b) :
    a.compare b = some (compare (ofUnpacked a) (ofUnpacked b)) := by
  cases a with
  | notANumber => exact ha.elim
  | infinity => exact ha.elim
  | zero s =>
    cases b with
    | notANumber => exact hb.elim
    | infinity => exact hb.elim
    | zero t => simp [UnpackedFloat.compare, ofUnpacked]
    | finite t m e hm =>
      have hpos := magnitude_pos (e := e) hm
      cases t
      · exact congrArg some (compare_gt_iff_gt.2 (neg_neg_of_pos hpos)).symm
      · exact congrArg some (compare_lt_iff_lt.2 hpos).symm
  | finite s m e hm =>
    have hpos := magnitude_pos (e := e) hm
    cases b with
    | notANumber => exact hb.elim
    | infinity => exact hb.elim
    | zero t =>
      cases s
      · exact congrArg some (compare_lt_iff_lt.2 (neg_neg_of_pos hpos)).symm
      · exact congrArg some (compare_gt_iff_gt.2 hpos).symm
    | finite t m' e' hm' =>
      have hpos' := magnitude_pos (e := e') hm'
      have heq := Canonical.compare_eq ha hb
      cases s <;> cases t <;> apply congrArg some
      · rw [heq]
        exact (compare_neg_neg _ _).symm
      · exact (compare_lt_iff_lt.2 (by simp only [ofUnpacked, signed]; linarith)).symm
      · exact (compare_gt_iff_gt.2 (by simp only [ofUnpacked, signed]; linarith)).symm
      · exact heq

/-- The value of a float, zero for one that is not finite. -/
def value (x : Float) : ℚ := ofUnpacked x.toModel.unpack

section

variable {x y : Float}

theorem regular_unpack (h : x.isFinite = true) : Regular x.toModel.unpack := by
  have hfinite : x.toModel.unpack.isFinite = true := h
  cases hx : x.toModel.unpack with
  | notANumber => rw [hx] at hfinite; cases hfinite
  | infinity => rw [hx] at hfinite; cases hfinite
  | zero => trivial
  | finite => exact canonical_of_unpack hx

theorem isNaN_of_isFinite (h : x.isFinite = true) : x.isNaN = false := by
  have hregular := regular_unpack h
  show x.toModel.unpack.isNaN = false
  cases hx : x.toModel.unpack with
  | notANumber => rw [hx] at hregular; exact hregular.elim
  | infinity => rfl
  | zero => rfl
  | finite => rfl

theorem compare_eq (hx : x.isFinite = true) (hy : y.isFinite = true) :
    x.toModel.unpack.compare y.toModel.unpack = some (compare (value x) (value y)) :=
  compare_unpacked (regular_unpack hx) (regular_unpack hy)

theorem lt_iff_unpacked : x < y ↔ x.toModel.unpack.lt y.toModel.unpack = true := by
  show decide (_ = true) = true ↔ _
  rw [decide_eq_true_iff]
  rfl

theorem le_iff_unpacked : x ≤ y ↔ x.toModel.unpack.le y.toModel.unpack = true := by
  show decide (_ = true) = true ↔ _
  rw [decide_eq_true_iff]
  rfl

theorem lt_iff (hx : x.isFinite = true) (hy : y.isFinite = true) : x < y ↔ value x < value y := by
  rw [lt_iff_unpacked, UnpackedFloat.lt, compare_eq hx hy, beq_iff_eq, Option.some_inj,
    compare_lt_iff_lt]

theorem le_iff (hx : x.isFinite = true) (hy : y.isFinite = true) : x ≤ y ↔ value x ≤ value y := by
  rw [le_iff_unpacked, UnpackedFloat.le, compare_eq hx hy, Option.any_some, ← compare_le_iff_le]
  exact Ordering.isLE_iff_ne_gt

theorem isFinite_of_between {low high : Float} (hlow : low.isFinite = true)
    (hhigh : high.isFinite = true) (hge : low ≤ x) (hle : x ≤ high) : x.isFinite = true := by
  have hlow := regular_unpack hlow
  have hhigh := regular_unpack hhigh
  rw [le_iff_unpacked] at hge hle
  show x.toModel.unpack.isFinite = true
  revert hge hle
  generalize x.toModel.unpack = u
  generalize low.toModel.unpack = l at hlow
  generalize high.toModel.unpack = r at hhigh
  intro hge hle
  cases u with
  | notANumber => cases l <;> cases hge
  | infinity s =>
    cases s
    · cases l with
      | finite => cases hge
      | zero => cases hge
      | notANumber => cases hge
      | infinity => exact hlow.elim
    · cases r with
      | finite => cases hle
      | zero => cases hle
      | notANumber => cases hle
      | infinity => exact hhigh.elim
  | zero => rfl
  | finite => rfl

end

@[simp] theorem isFinite_zero : (0.0 : Float).isFinite = true := by decide +kernel

@[simp] theorem isFinite_one : (1.0 : Float).isFinite = true := by decide +kernel

@[simp] theorem isFinite_neg_one : (-1.0 : Float).isFinite = true := by decide +kernel

@[simp] theorem value_zero : value 0.0 = 0 := rfl

@[simp] theorem value_one : value 1.0 = 1 := by
  show magnitude (2 ^ 52) (-52) = 1
  norm_num [magnitude]

@[simp] theorem value_neg_one : value (-1.0) = -1 := by
  show -magnitude (2 ^ 52) (-52) = -1
  norm_num [magnitude]

section

variable {low high x : Float}

theorem clamp_isFinite (hlow : low.isFinite = true) (hhigh : high.isFinite = true)
    (hx : x.isFinite = true) : (FloatOrder.clamp low high x).isFinite = true := by
  unfold FloatOrder.clamp
  split
  · exact hlow
  · split
    · exact hhigh
    · exact hx

theorem value_clamp (hlow : low.isFinite = true) (hhigh : high.isFinite = true)
    (hx : x.isFinite = true) (hle : value low ≤ value high) :
    value (FloatOrder.clamp low high x) = max (value low) (min (value high) (value x)) := by
  unfold FloatOrder.clamp
  by_cases h : x < low
  · rw [if_pos h]
    rw [lt_iff hx hlow] at h
    rw [min_eq_right (h.le.trans hle), max_eq_left h.le]
  · rw [if_neg h]
    rw [lt_iff hx hlow, not_lt] at h
    by_cases h' : high < x
    · rw [if_pos h']
      rw [lt_iff hhigh hx] at h'
      rw [min_eq_left h'.le, max_eq_right hle]
    · rw [if_neg h']
      rw [lt_iff hhigh hx, not_lt] at h'
      rw [min_eq_right h', max_eq_right h]

theorem clamp_near (hlow : low.isFinite = true) (hhigh : high.isFinite = true)
    (hx : x.isFinite = true) {c : ℚ} (hge : value low ≤ c) (hle : c ≤ value high) :
    |value (FloatOrder.clamp low high x) - c| ≤ |value x - c| := by
  rw [value_clamp hlow hhigh hx (hge.trans hle)]
  rcases le_total (value x) (value low) with h | h
  · rw [min_eq_right (h.trans (hge.trans hle)), max_eq_left h, abs_of_nonpos (sub_nonpos.2 hge),
      abs_of_nonpos (sub_nonpos.2 (h.trans hge))]
    linarith
  · rcases le_total (value x) (value high) with h' | h'
    · rw [min_eq_right h', max_eq_right h]
    · rw [min_eq_left h', max_eq_right (hge.trans hle), abs_of_nonneg (sub_nonneg.2 hle),
        abs_of_nonneg (sub_nonneg.2 (hle.trans h'))]
      linarith

private theorem le_value_clamp (hlow : low.isFinite = true) (hhigh : high.isFinite = true)
    (hx : x.isFinite = true) (hle : value low ≤ value high) :
    value low ≤ value (FloatOrder.clamp low high x) := by
  rw [value_clamp hlow hhigh hx hle]
  apply le_max_left

private theorem value_clamp_le (hlow : low.isFinite = true) (hhigh : high.isFinite = true)
    (hx : x.isFinite = true) (hle : value low ≤ value high) :
    value (FloatOrder.clamp low high x) ≤ value high := by
  rw [value_clamp hlow hhigh hx hle]
  exact max_le hle (min_le_left _ _)

/-- A float that counts as zero or is a finite one clamped. -/
theorem between_of_clamped {y : Float} (hlow : low.isFinite = true) (hhigh : high.isFinite = true)
    (hneg : value low ≤ 0) (hpos : 0 ≤ value high)
    (hy : y = 0.0 ∨ x.isFinite = true ∧ y = FloatOrder.clamp low high x) :
    y.isFinite = true ∧ value low ≤ value y ∧ value y ≤ value high := by
  rcases hy with rfl | ⟨hx, rfl⟩
  · simp [hneg, hpos]
  · have hle := hneg.trans hpos
    exact ⟨clamp_isFinite hlow hhigh hx, le_value_clamp hlow hhigh hx hle,
      value_clamp_le hlow hhigh hx hle⟩

end

end SignalDesk.FloatValue
