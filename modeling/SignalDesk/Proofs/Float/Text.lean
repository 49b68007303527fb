import SignalDesk.Proofs.Numeral
import SignalDesk.Proofs.Float.Exact

/-!
# Floats from their text

The digits that are written for a float are read as the same float: either they were tried, or they
are all the digits of its exact value.
-/

namespace SignalDesk

namespace Numeral

private theorem stripZeros_pos {n : ℕ} (k : ℤ) (hn : 0 < n) : 0 < (stripZeros n k).1 := by
  induction n, k using stripZeros.induct with
  | case1 k => exact absurd hn (lt_irrefl 0)
  | case2 n k h0 h10 ih =>
    rw [stripZeros, if_neg h0, if_pos h10]
    exact ih (by omega)
  | case3 n k h0 h10 => rwa [stripZeros, if_neg h0, if_neg h10]

private theorem stripZeros_value (n : ℕ) (k : ℤ) :
    ((stripZeros n k).1 : ℚ) * 10 ^ (stripZeros n k).2 = n * 10 ^ k := by
  induction n, k using stripZeros.induct with
  | case1 k => simp [stripZeros]
  | case2 n k h0 h10 ih =>
    have hn : (n : ℚ) = (n / 10 : ℕ) * 10 := by
      exact_mod_cast (Nat.div_mul_cancel (Nat.dvd_of_mod_eq_zero h10)).symm
    rw [stripZeros, if_neg h0, if_pos h10, ih, hn, zpow_add_one₀ (by norm_num)]
    ring
  | case3 n k h0 h10 => rw [stripZeros, if_neg h0, if_neg h10]

private theorem toFloat_stripZeros (negative : Bool) (n : ℕ) (k : ℤ) :
    toFloat ⟨negative, (stripZeros n k).1, (stripZeros n k).2⟩ = toFloat ⟨negative, n, k⟩ := by
  induction n, k using stripZeros.induct with
  | case1 k => simp [toFloat, stripZeros]
  | case2 n k h0 h10 ih =>
    have hn : n = n / 10 * 10 := (Nat.div_mul_cancel (Nat.dvd_of_mod_eq_zero h10)).symm
    rw [stripZeros, if_neg h0, if_pos h10, ih, ← toFloat_mul_ten, ← hn]
  | case3 n k h0 h10 => rw [stripZeros, if_neg h0, if_neg h10]

private theorem toFloat_mul_ten_pow (negative : Bool) (n : ℕ) (k : ℤ) (j : ℕ) :
    toFloat ⟨negative, n * 10 ^ j, k⟩ = toFloat ⟨negative, n, k + j⟩ := by
  induction j generalizing k with
  | zero => simp
  | succ j ih =>
    rw [pow_succ, ← mul_assoc, toFloat_mul_ten, ih]
    congr 2
    push_cast
    ring

private theorem toFloat_zero (negative : Bool) (k : ℤ) :
    toFloat ⟨negative, 0, k⟩ = if negative then -0.0 else 0.0 := by
  simp [toFloat, stripZeros, nearest]

private theorem toFloat_eq (negative : Bool) (n : ℕ) (k : ℤ) :
    toFloat ⟨negative, n, k⟩ =
      if negative then -toFloat ⟨false, n, k⟩ else toFloat ⟨false, n, k⟩ := rfl

end Numeral

namespace FloatValue

open Float.Model (UnpackedFloat)
open Float.Model.UnpackedFloat (Sign)

private theorem two_pow_le_ten_pow {j k : ℕ} (h : j ≤ 3 * k) : (2 : ℚ) ^ j ≤ 10 ^ k :=
  calc (2 : ℚ) ^ j ≤ 2 ^ (3 * k) := pow_le_pow_right₀ one_le_two h
    _ = 8 ^ k := by rw [pow_mul]; norm_num
    _ ≤ 10 ^ k := pow_le_pow_left₀ (by norm_num) (by norm_num) k

section

variable {m n : ℕ} {e k : ℤ} (h : Canonical m e) (hm : 0 < m) (hn : 0 < n)
  (heq : (n : ℚ) * 10 ^ k = magnitude m e)

include h hm

private theorem Canonical.magnitude_bounds :
    (10 : ℚ) ^ (-401 : ℤ) ≤ magnitude m e ∧ magnitude m e < 10 ^ (400 : ℤ) := by
  constructor
  · have hone : (1 : ℚ) ≤ m := by exact_mod_cast hm
    calc (10 : ℚ) ^ (-401 : ℤ) ≤ 1 * 2 ^ (-1074 : ℤ) := by
          rw [one_mul, zpow_neg, zpow_neg, zpow_ofNat, zpow_ofNat]
          exact inv_anti₀ (by positivity) (two_pow_le_ten_pow (by norm_num))
      _ ≤ magnitude m e :=
        mul_le_mul hone (zpow_le_zpow_right₀ one_le_two h.exponent_ge) (by positivity)
          (Nat.cast_nonneg m)
  · rw [zpow_ofNat]
    calc magnitude m e < 2 ^ (1024 : ℤ) := h.magnitude_le.trans_lt largest_lt
      _ = 2 ^ 1024 := zpow_ofNat _ _
      _ ≤ 10 ^ 400 := two_pow_le_ten_pow (by norm_num)

include hn heq

private theorem order_bounds :
    -400 ≤ k + (Nat.toDigits 10 n).length ∧ k + (Nat.toDigits 10 n).length ≤ 400 := by
  obtain ⟨hlow, hhigh⟩ := h.magnitude_bounds hm
  have hlength : 0 < (Nat.toDigits 10 n).length := Nat.length_toDigits_pos
  rw [← heq] at hlow hhigh
  have hpower : (0 : ℚ) < 10 ^ k := by positivity
  constructor
  · have hlt : (n : ℚ) < 10 ^ (Nat.toDigits 10 n).length := by
      exact_mod_cast (Nat.length_toDigits_le_iff (by norm_num) hlength).1 le_rfl
    have hmagnitude : (10 : ℚ) ^ (-401 : ℤ) < 10 ^ (k + (Nat.toDigits 10 n).length) := by
      calc (10 : ℚ) ^ (-401 : ℤ) ≤ n * 10 ^ k := hlow
        _ < 10 ^ (Nat.toDigits 10 n).length * 10 ^ k := mul_lt_mul_of_pos_right hlt hpower
        _ = 10 ^ (k + (Nat.toDigits 10 n).length) := by
          rw [zpow_add₀ (by norm_num), zpow_natCast, mul_comm]
    have := (zpow_lt_zpow_iff_right₀ (by norm_num : (1 : ℚ) < 10)).1 hmagnitude
    omega
  · by_contra hlong
    have hge : (10 : ℚ) ^ ((Nat.toDigits 10 n).length - 1) ≤ n := by
      by_contra hlt
      have hlt : n < 10 ^ ((Nat.toDigits 10 n).length - 1) := by exact_mod_cast not_le.1 hlt
      by_cases hone : (Nat.toDigits 10 n).length - 1 = 0
      · rw [hone] at hlt
        omega
      · have := (Nat.length_toDigits_le_iff (by norm_num) (by omega)).2 hlt
        omega
    apply hhigh.not_ge
    calc (10 : ℚ) ^ (400 : ℤ) ≤ 10 ^ (k + ((Nat.toDigits 10 n).length - 1 : ℕ)) :=
          zpow_le_zpow_right₀ (by norm_num) (by omega)
      _ = 10 ^ ((Nat.toDigits 10 n).length - 1) * 10 ^ k := by
          rw [zpow_add₀ (by norm_num), zpow_natCast, mul_comm]
      _ ≤ n * 10 ^ k := mul_le_mul_of_nonneg_right hge hpower.le

private theorem holds_nearest : Holds (Numeral.nearest n k) m e := by
  obtain ⟨hlow, hhigh⟩ := order_bounds h hm hn heq
  have hlength : 0 < (Nat.toDigits 10 n).length := Nat.length_toDigits_pos
  have hbits : (Nat.toDigits 10 n).length ≤ n.log2 + 1 := by
    rw [Nat.length_toDigits_le_iff (by norm_num) (by omega)]
    calc n < 2 ^ (n.log2 + 1) := Nat.lt_log2_self
      _ ≤ 10 ^ (n.log2 + 1) := Nat.pow_le_pow_left (by norm_num) _
  have hsmall : ¬ (n = 0 || k + (Nat.toDigits 10 n).length < -400) = true := by
    simp only [Bool.or_eq_true, decide_eq_true_eq]
    omega
  unfold Numeral.nearest
  simp only [if_neg hsmall]
  rw [if_neg (not_lt.2 hhigh)]
  exact holds_ofScientific h hm hn (by omega) (by omega) heq

private theorem holds_toFloat_of_exact : Holds (Numeral.toFloat ⟨false, n, k⟩) m e :=
  holds_nearest h hm (Numeral.stripZeros_pos k hn) (by rw [Numeral.stripZeros_value, heq])

end

section

variable {x : Float} {m : ℕ} {e : ℤ} (hx : Holds x m e)

include hx

private theorem Holds.toFloat_eq {n : ℕ} {k : ℤ} (hn : 0 < n)
    (heq : (n : ℚ) * 10 ^ k = magnitude m e) : Numeral.toFloat ⟨false, n, k⟩ = x :=
  (holds_toFloat_of_exact hx.canonical hx.pos hn heq).eq hx

private theorem Holds.ne_zero : x ≠ 0.0 := by
  rintro rfl
  have hzero : (0.0 : Float).toModel.unpack = .zero .positive := rfl
  exact nomatch hzero.symm.trans hx.unpack_eq

private theorem Holds.pos_of_readsAs {n : ℕ} {k : ℤ} (h : Numeral.toFloat ⟨false, n, k⟩ = x) :
    0 < n := by
  apply Nat.pos_of_ne_zero
  rintro rfl
  apply hx.ne_zero
  rw [← h, Numeral.toFloat_zero]
  rfl

end

private theorem readsAs_of_withDigits? {tie : TieRule} {x : Float} {num den : ℕ} {order : ℤ}
    {count : ℕ} {found : ℕ × ℤ} (h : FloatText.withDigits? tie x num den order count = some found) :
    FloatText.readsAs x found.1 found.2 = true := by
  unfold FloatText.withDigits? at h
  simp only at h
  split at h
  · rename_i hnear
    cases h
    exact hnear
  · split at h
    · rename_i hfar
      cases h
      exact hfar
    · cases h

private theorem toFloat_of_readsAs {x : Float} {n : ℕ} {k : ℤ} (h : FloatText.readsAs x n k = true) :
    Numeral.toFloat ⟨false, n, k⟩ = x :=
  eq_of_toBits_eq (beq_iff_eq.1 h)

private theorem exactDigits_value (m : ℕ) (e : ℤ) :
    ((FloatText.exactDigits m e).1 : ℚ) * 10 ^ (FloatText.exactDigits m e).2 = magnitude m e := by
  unfold FloatText.exactDigits magnitude
  split
  · rename_i hsign
    have hten : (10 : ℚ) ^ e = ((5 : ℚ) ^ e.natAbs)⁻¹ * 2 ^ e := by
      have he : e = -(e.natAbs : ℤ) := by omega
      rw [show (10 : ℚ) = 5 * 2 by norm_num, mul_zpow]
      congr 1
      conv_lhs => rw [he]
      rw [zpow_neg, zpow_natCast]
    show ((m * 5 ^ e.natAbs : ℕ) : ℚ) * 10 ^ e = _
    rw [hten]
    push_cast
    field_simp
  · rename_i hsign
    have he : e = (e.natAbs : ℤ) := by omega
    show ((m * 2 ^ e.natAbs : ℕ) : ℚ) * 10 ^ (0 : ℤ) = _
    conv_rhs => rw [he]
    rw [zpow_natCast]
    push_cast
    ring

private theorem exactDigits_pos {m : ℕ} (e : ℤ) (hm : 0 < m) : 0 < (FloatText.exactDigits m e).1 := by
  unfold FloatText.exactDigits
  split
  · exact Nat.mul_pos hm (Nat.pow_pos (by decide))
  · exact Nat.mul_pos hm (Nat.pow_pos (by decide))

theorem Holds.shortest {x : Float} {m : ℕ} {e : ℤ} (hx : Holds x m e) (tie : TieRule) :
    0 < (FloatText.shortest tie m e x).1 ∧
      Numeral.toFloat ⟨false, (FloatText.shortest tie m e x).1, (FloatText.shortest tie m e x).2⟩ =
        x := by
  obtain ⟨digits, k, hread, hstrip⟩ : ∃ digits k, Numeral.toFloat ⟨false, digits, k⟩ = x ∧
      FloatText.shortest tie m e x = Numeral.stripZeros digits k := by
    unfold FloatText.shortest
    simp only
    generalize hfound : (List.range 17).findSome? _ = found
    cases found with
    | none =>
      exact ⟨_, _, hx.toFloat_eq (exactDigits_pos e hx.pos) (exactDigits_value m e), rfl⟩
    | some found =>
      obtain ⟨n, -, hn⟩ := List.exists_of_findSome?_eq_some hfound
      exact ⟨_, _, toFloat_of_readsAs (readsAs_of_withDigits? hn), rfl⟩
  rw [hstrip]
  exact ⟨Numeral.stripZeros_pos k (hx.pos_of_readsAs hread),
    (Numeral.toFloat_stripZeros false digits k).trans hread⟩

section

variable {x : Float} {s : Sign} {m : ℕ} {e : ℤ} {hm : 0 < m}

private theorem holds_abs (h : x.toModel.unpack = .finite s m e hm) : Holds x.abs m e := by
  have hcanonical := canonical_of_unpack h
  have habs : x.toModel.unpack.abs = .finite .positive m e hm := by rw [h]; rfl
  refine ⟨hcanonical, hm, ?_⟩
  show (Float.Model.pack x.toModel.unpack.abs).unpack = _
  rw [habs]
  exact unpack_pack (u := .finite .positive m e hm) hcanonical

private theorem eq_signed_abs (h : x.toModel.unpack = .finite s m e hm) :
    x = if isNegative s then -x.abs else x.abs := by
  have habs := holds_abs h
  apply eq_of_unpack_eq
  rw [h]
  cases s with
  | negative =>
    have hneg : x.abs.toModel.unpack.neg = .finite .negative m e hm := by rw [habs.unpack_eq]; rfl
    show _ = (Float.Model.pack x.abs.toModel.unpack.neg).unpack
    rw [hneg]
    exact (unpack_pack (u := .finite .negative m e hm) habs.canonical).symm
  | positive => exact habs.unpack_eq.symm

end

end FloatValue

private theorem digitsValue_append_zeros (digits : List Char) (j : ℕ) :
    digitsValue (digits ++ List.replicate j '0') = digitsValue digits * 10 ^ j := by
  show Nat.ofDigitChars 10 _ 0 = _
  rw [Nat.ofDigitChars_append, Nat.ofDigitChars_replicate_zero]
  exact mul_comm _ _

namespace FloatText

open FloatValue

/-- A whole part and a fraction as they are written. -/
structure Spelled (whole fraction : List Char) : Prop where
  whole_digits : ∀ c ∈ whole, c.isDigit = true
  fraction_digits : ∀ c ∈ fraction, c.isDigit = true
  fraction_ne_nil : fraction ≠ []
  lead : whole = ['0'] ∨ ∃ c rest, whole = c :: rest ∧ c ≠ '0'

private theorem orZero_of_ne_nil {fraction : List Char} (h : fraction ≠ []) :
    orZero fraction = fraction := by
  unfold orZero
  rw [if_neg (by simpa using h)]

/-- The two parts say the number `n * 10 ^ k`. -/
structure Spells (n : ℕ) (k : ℤ) (whole fraction : List Char) : Prop extends
    Spelled whole fraction where
  toFloat_eq (negative : Bool) :
    Numeral.toFloat ⟨negative, digitsValue (whole ++ fraction), -(fraction.length : ℤ)⟩ =
      Numeral.toFloat ⟨negative, n, k⟩

section Positional

variable {n : ℕ} {k : ℤ} {d : Char} {digits : List Char} (hd : d ≠ '0')
  (hdigits : ∀ c ∈ d :: digits, c.isDigit = true) (hvalue : digitsValue (d :: digits) = n)

include hdigits hvalue

private theorem spells_below {zeros : ℕ} (hpoint : ((d :: digits).length + k : ℤ) = -zeros) :
    Spells n k ['0'] (List.replicate zeros '0' ++ d :: digits) where
  whole_digits := by simp
  fraction_digits c hc := (List.mem_append.1 hc).elim isDigit_of_mem_zeros (hdigits c)
  fraction_ne_nil := by simp
  lead := .inl rfl
  toFloat_eq negative := by
    have hzeros : ['0'] ++ (List.replicate zeros '0' ++ d :: digits) =
        List.replicate (zeros + 1) '0' ++ d :: digits := rfl
    rw [hzeros, digitsValue_zeros_append, hvalue]
    congr 2
    rw [List.length_append, List.length_replicate]
    omega

include hd

private theorem spells_inside {point : ℕ} (hpos : 0 < point) (hlt : point < (d :: digits).length)
    (hpoint : ((d :: digits).length + k : ℤ) = point) :
    Spells n k ((d :: digits).take point) ((d :: digits).drop point) where
  whole_digits c hc := hdigits c (List.mem_of_mem_take hc)
  fraction_digits c hc := hdigits c (List.mem_of_mem_drop hc)
  fraction_ne_nil := by
    rw [Ne, List.drop_eq_nil_iff]
    omega
  lead := by
    obtain ⟨j, rfl⟩ := Nat.exists_eq_succ_of_ne_zero hpos.ne'
    exact .inr ⟨d, digits.take j, rfl, hd⟩
  toFloat_eq negative := by
    rw [List.take_append_drop, hvalue]
    congr 2
    rw [List.length_drop]
    omega

private theorem spells_beyond {zeros : ℕ} (hpoint : k = zeros) :
    Spells n k (d :: digits ++ List.replicate zeros '0') ['0'] where
  whole_digits c hc := (List.mem_append.1 hc).elim (hdigits c) isDigit_of_mem_zeros
  fraction_digits := by simp
  fraction_ne_nil := by simp
  lead := .inr ⟨d, digits ++ List.replicate zeros '0', rfl, hd⟩
  toFloat_eq negative := by
    have hzeros : d :: digits ++ List.replicate zeros '0' ++ ['0'] =
        d :: digits ++ List.replicate (zeros + 1) '0' := by
      rw [List.append_assoc, List.replicate_succ']
    rw [hzeros, digitsValue_append_zeros, hvalue, Numeral.toFloat_mul_ten_pow]
    congr 2
    show -((1 : ℕ) : ℤ) + _ = k
    push_cast
    omega

end Positional

/-- Digits laid out around a decimal point say the same number as before. -/
theorem positional_spells {n : ℕ} (hn : 0 < n) (k : ℤ) {whole fraction : List Char}
    (h : positional (decimalDigits n) ((decimalDigits n).length + k) = (whole, fraction)) :
    Spells n k whole (orZero fraction) := by
  have hdigits : ∀ c ∈ decimalDigits n, c.isDigit = true := fun c => isDigit_of_mem_decimalDigits
  have hvalue := digitsValue_decimalDigits n
  obtain ⟨d, digits, hlead, hd⟩ := decimalDigits_eq_cons hn
  rw [hlead] at h hdigits hvalue
  unfold positional at h
  split at h
  · cases h
    rw [orZero_of_ne_nil (by simp)]
    exact spells_below hdigits hvalue (by omega)
  · cases h
    rcases Nat.lt_or_ge ((d :: digits).length + k).natAbs (d :: digits).length with hinside | hbeyond
    · have hfraction : (d :: digits).drop ((d :: digits).length + k).natAbs ≠ [] := by
        rw [Ne, List.drop_eq_nil_iff]
        omega
      rw [orZero_of_ne_nil hfraction, Nat.sub_eq_zero_of_le hinside.le, List.replicate_zero,
        List.append_nil]
      exact spells_inside hd hdigits hvalue (by omega) hinside (by omega)
    · rw [List.drop_eq_nil_of_le hbeyond, List.take_of_length_le hbeyond]
      exact spells_beyond hd hdigits hvalue (by omega)

/-- The written form of a finite float, which is read as the float. -/
theorem pointed_finite {x : Float} (hx : x.isFinite = true) :
    ∃ negative whole fraction, (pointed x).toList = sign negative ++ (whole ++ '.' :: fraction) ∧
      Spelled whole fraction ∧
      Numeral.toFloat ⟨negative, digitsValue (whole ++ fraction), -(fraction.length : ℤ)⟩ = x := by
  have hregular := regular_unpack hx
  have hshape := shape_eq x
  cases hu : x.toModel.unpack with
  | notANumber => rw [hu] at hregular; exact hregular.elim
  | infinity => rw [hu] at hregular; exact hregular.elim
  | zero s =>
    rw [hu] at hshape
    refine ⟨isNegative s, ['0'], ['0'], ?_, ⟨by simp, by simp, by simp, .inl rfl⟩, ?_⟩
    · unfold pointed
      rw [hshape]
      exact String.toList_ofList
    · have hdigits : digitsValue (['0'] ++ ['0']) = 0 := rfl
      apply eq_of_unpack_eq
      rw [hu, hdigits, Numeral.toFloat_zero]
      cases s <;> rfl
  | finite s m e hm =>
    rw [hu] at hshape
    have habs := holds_abs hu
    obtain ⟨hpos, hread⟩ := habs.shortest .upward
    generalize hdigits : shortest .upward m e x.abs = found at hpos hread
    obtain ⟨n, k⟩ := found
    obtain ⟨whole, fraction, hwhole⟩ : ∃ whole fraction,
        positional (decimalDigits n) ((decimalDigits n).length + k) = (whole, fraction) :=
      ⟨_, _, rfl⟩
    have hspells := positional_spells hpos k hwhole
    refine ⟨isNegative s, whole, orZero fraction, ?_, hspells.toSpelled, ?_⟩
    · obtain ⟨j, rfl⟩ := Nat.exists_eq_succ_of_ne_zero hm.ne'
      unfold pointed
      rw [hshape]
      simp only [shapeOf, hdigits, hwhole, String.toList_ofList, joinPoint]
      rw [if_neg (by simpa using hspells.fraction_ne_nil)]
    · rw [hspells.toFloat_eq, Numeral.toFloat_eq, hread]
      exact (eq_signed_abs hu).symm

end FloatText

end SignalDesk
