import SignalDesk.Proofs.Decimal.Value

/-!
# Sums of amounts

A sum that does not fit loses places and is rounded. What rounding cannot do is turn a gain into a
loss: the mantissa bound lies above a multiple of ten by more than half of ten, so that the first sum
that has to be rounded is rounded up.
-/

namespace SignalDesk.Decimal

private theorem ten_pow_succ (n : Nat) : 10 ^ (n + 1) = 10 * 10 ^ n := by
  rw [pow_succ, mul_comm]

private theorem roundHalfEven_ge_of_mul_le {n d q : Nat} (hd : 0 < d) (h : q * d ≤ n) :
    q ≤ roundHalfEven n d :=
  ((Nat.le_div_iff_mul_le hd).2 h).trans (le_roundHalfEven n d)

private theorem roundHalfEven_le_of_le_mul {n d q : Nat} (hd : 0 < d) (h : n ≤ q * d) :
    roundHalfEven n d ≤ q := by
  rcases Nat.lt_or_ge (n / d) q with hlt | hge
  · exact (roundHalfEven_le n d).trans hlt
  · have hn : n = q * d := le_antisymm h ((Nat.le_div_iff_mul_le hd).1 hge)
    subst hn
    rw [roundHalfEven_of_dvd hd (Nat.dvd_mul_left d q), Nat.mul_div_cancel q hd]

theorem bound_lt_roundHalfEven {n e : Nat} (h : (2 * mantissaBound - 1) * 10 ^ e ≤ 2 * n) :
    mantissaBound * 10 ^ e < roundHalfEven n (10 ^ (e + 1)) * 10 ^ (e + 1) := by
  have hp : 0 < 10 ^ e := by positivity
  rw [ten_pow_succ]
  generalize 10 ^ e = p at h hp ⊢
  have hdiv := Nat.div_add_mod n (10 * p)
  have hmod := Nat.mod_lt n (show 0 < 10 * p by omega)
  rw [Nat.mul_assoc] at hdiv
  unfold mantissaBound at h ⊢
  have hq : 7922816251426433759354395033 ≤ n / (10 * p) := by
    by_contra hlt
    have hle : n / (10 * p) ≤ 7922816251426433759354395032 := by omega
    have := Nat.mul_le_mul_left p hle
    omega
  have hup : 7922816251426433759354395034 ≤ roundHalfEven n (10 * p) := by
    rcases Nat.eq_or_lt_of_le hq with heq | hlt
    · rw [← heq] at hdiv
      rw [roundHalfEven, if_neg (by omega), if_pos (by omega), ← heq]
    · exact hlt.trans_le (le_roundHalfEven n (10 * p))
  have := Nat.mul_le_mul_right (10 * p) hup
  omega

private theorem half_le_of_roundHalfEven_gt {n d : Nat} (h : n / d < roundHalfEven n d) :
    d ≤ 2 * (n % d) := by
  by_contra hlt
  rw [roundHalfEven, if_pos (by omega)] at h
  omega

theorem excessDigits_fits (n : Nat) : n / 10 ^ excessDigits n < mantissaBound := by
  fun_induction excessDigits n with
  | case1 n h => simpa using h
  | case2 n h ih => rwa [ten_pow_succ, ← Nat.div_div_eq_div_mul]

theorem excessDigits_le {n d : Nat} (h : n / 10 ^ d < mantissaBound) : excessDigits n ≤ d := by
  fun_induction excessDigits n generalizing d with
  | case1 n hn => exact Nat.zero_le d
  | case2 n hn ih =>
    cases d with
    | zero => exact absurd (by simpa using h) hn
    | succ d =>
      rw [ten_pow_succ, ← Nat.div_div_eq_div_mul] at h
      exact Nat.succ_le_succ (ih h)

private theorem excessDigits_least {n : Nat} (h : 0 < excessDigits n) :
    mantissaBound * 10 ^ (excessDigits n - 1) ≤ n := by
  fun_induction excessDigits n with
  | case1 n hn => omega
  | case2 n hn ih =>
    rcases Nat.eq_zero_or_pos (excessDigits (n / 10)) with hz | hp
    · rw [hz]
      omega
    · have hn' := (Nat.le_div_iff_mul_le (by decide)).1 (ih hp)
      have he : excessDigits (n / 10) + 1 - 1 = excessDigits (n / 10) - 1 + 1 := by omega
      rw [he, pow_succ, ← Nat.mul_assoc]
      exact hn'

theorem ofMagnitude?_eq_some {negative : Bool} {m scale : Nat} {r : Decimal}
    (h : ofMagnitude? negative m scale = some r) :
    r.scale = scale ∧ r.magnitude = m ∧ r.isNegative = (negative && r.magnitude != 0) := by
  unfold ofMagnitude? ofSigned? at h
  split at h
  · cases h
    exact ⟨rfl, rfl, rfl⟩
  · cases h

/-- What fitting does to an exact result: it drops `d` places, none unless the result is too large. -/
theorem fit?_eq_some {negative : Bool} {n scale : Nat} {r : Decimal} (hs : scale ≤ maxScale)
    (h : fit? negative n scale = some r) :
    ∃ d, d ≤ scale ∧ r.scale = scale - d ∧ r.magnitude = roundHalfEven n (10 ^ d) ∧
      r.isNegative = (negative && r.magnitude != 0) ∧
      (d = 0 ∨ (2 * mantissaBound - 1) * 10 ^ (d - 1) ≤ 2 * n) := by
  have hdrop : Nat.max (excessDigits n) (scale - maxScale) = excessDigits n := by
    rw [Nat.sub_eq_zero_of_le hs]
    exact Nat.max_zero _
  unfold fit? at h
  simp only [hdrop, Nat.pow_eq] at h
  split at h
  · split at h
    · rename_i hle
      obtain ⟨hscale, hmag, hsign⟩ := ofMagnitude?_eq_some h
      refine ⟨excessDigits n, hle, hscale, hmag, hsign, ?_⟩
      rcases Nat.eq_zero_or_pos (excessDigits n) with hz | hp
      · exact .inl hz
      · have := excessDigits_least hp
        right
        generalize 10 ^ (excessDigits n - 1) = p at this ⊢
        unfold mantissaBound at this ⊢
        omega
    · cases h
  · rename_i hcarry
    split at h
    · rename_i hlt
      obtain ⟨hscale, hmag, hsign⟩ := ofMagnitude?_eq_some h
      refine ⟨excessDigits n + 1, hlt, hscale, hmag, hsign, .inr ?_⟩
      have hfits := excessDigits_fits n
      have hge := Nat.le_of_not_lt hcarry
      have hhalf := half_le_of_roundHalfEven_gt (hfits.trans_le hge)
      have hup := roundHalfEven_le n (10 ^ excessDigits n)
      have hdiv := Nat.div_add_mod n (10 ^ excessDigits n)
      have hq : n / 10 ^ excessDigits n = mantissaBound - 1 :=
        le_antisymm (Nat.le_sub_one_of_lt hfits) (Nat.sub_le_of_le_add (hge.trans hup))
      rw [hq] at hdiv
      rw [Nat.add_sub_cancel]
      generalize 10 ^ excessDigits n = p at hdiv hhalf ⊢
      generalize n % p = r at hdiv hhalf
      unfold mantissaBound at hdiv ⊢
      omega
    · cases h

theorem fit?_mantissa {negative : Bool} {m : Nat} {r : Decimal}
    (hm : r.magnitude = m) (hs : r.isNegative = (negative && r.magnitude != 0)) :
    r.mantissa = if negative then -(m : Int) else m := by
  unfold mantissa
  rw [hs, hm]
  cases negative with
  | false => simp
  | true => by_cases hz : m = 0 <;> simp [hz]

/-- The sum of two amounts at a common scale, times the power of ten of that scale. -/
def alignedSum (a b : Decimal) : Int :=
  a.mantissa * 10 ^ (Nat.max a.scale b.scale - a.scale) +
    b.mantissa * 10 ^ (Nat.max a.scale b.scale - b.scale)

private theorem aligned_toRat {a : Decimal} {scale : Nat} (h : a.scale ≤ scale) :
    a.toRat = ((a.mantissa * 10 ^ (scale - a.scale) : Int) : ℚ) / 10 ^ scale := by
  have hp : (10 : ℚ) ^ scale = 10 ^ (scale - a.scale) * 10 ^ a.scale := by
    rw [← pow_add, Nat.sub_add_cancel h]
  rw [toRat, hp]
  push_cast
  field_simp

theorem alignedSum_toRat (a b : Decimal) :
    a.toRat + b.toRat = (alignedSum a b : ℚ) / 10 ^ Nat.max a.scale b.scale := by
  rw [aligned_toRat (Nat.le_max_left a.scale b.scale),
    aligned_toRat (Nat.le_max_right a.scale b.scale), ← add_div, alignedSum]
  push_cast
  rfl

theorem max_scale_le (a b : Decimal) : Nat.max a.scale b.scale ≤ maxScale :=
  Nat.max_le.2 ⟨a.scale_le, b.scale_le⟩

theorem add?_of_nonzero {a b : Decimal} (ha : a.isZero = false) (hb : b.isZero = false) :
    a.add? b = fit? (alignedSum a b < 0) (alignedSum a b).natAbs (Nat.max a.scale b.scale) := by
  simp only [add?, ha, hb, Bool.false_eq_true, if_false, alignedSum, Nat.pow_eq]
  push_cast
  rfl

private theorem aligned_le_rounded (a sum : Int) {m k d : Nat} (ha : a.natAbs = m * 10 ^ k)
    (hm : m < mantissaBound) (hle : a ≤ sum)
    (hd : d = 0 ∨ (2 * mantissaBound - 1) * 10 ^ (d - 1) ≤ 2 * sum.natAbs) :
    a ≤ (if sum < 0 then -(roundHalfEven sum.natAbs (10 ^ d) : Int)
      else roundHalfEven sum.natAbs (10 ^ d)) * 10 ^ d := by
  rcases Nat.lt_or_ge k d with hkd | hdk
  · -- the sum has outgrown the mantissa by more than the alignment of `a`
    obtain ⟨e, rfl⟩ : ∃ e, d = e + 1 := ⟨d - 1, by omega⟩
    have hbig := hd.resolve_left (Nat.succ_ne_zero e)
    rw [Nat.add_sub_cancel] at hbig
    have hsmall : a.natAbs ≤ (mantissaBound - 1) * 10 ^ e := by
      rw [ha]
      exact Nat.mul_le_mul (Nat.le_sub_one_of_lt hm) (Nat.pow_le_pow_right (by decide) (by omega))
    have hp : 0 < 10 ^ e := by positivity
    split <;> rename_i hs
    · exfalso
      generalize 10 ^ e = p at hbig hsmall hp
      unfold mantissaBound at hbig hsmall
      omega
    · have hr := bound_lt_roundHalfEven hbig
      have hlt : (a.natAbs : Int) < roundHalfEven sum.natAbs (10 ^ (e + 1)) * 10 ^ (e + 1) := by
        refine lt_of_le_of_lt (Int.ofNat_le.2 hsmall) (lt_of_le_of_lt ?_ (Int.ofNat_lt.2 hr))
        exact Int.ofNat_le.2 (Nat.mul_le_mul_right _ (Nat.sub_le _ _))
      exact (Int.le_natAbs.trans_lt hlt).le
  · have hq : a.natAbs = m * 10 ^ (k - d) * 10 ^ d := by
      rw [ha, Nat.mul_assoc, ← pow_add, Nat.sub_add_cancel hdk]
    have hp : 0 < 10 ^ d := by positivity
    split <;> rename_i hs
    · have hr := roundHalfEven_le_of_le_mul hp (show sum.natAbs ≤ m * 10 ^ (k - d) * 10 ^ d by omega)
      have hle' := Nat.mul_le_mul_right (10 ^ d) hr
      rw [← hq] at hle'
      have hcast : (roundHalfEven sum.natAbs (10 ^ d) * 10 ^ d : Int) ≤ a.natAbs := by
        exact_mod_cast hle'
      rw [neg_mul]
      omega
    · rcases le_total a 0 with hneg | hpos
      · exact hneg.trans (by positivity)
      · have hr := roundHalfEven_ge_of_mul_le hp (show m * 10 ^ (k - d) * 10 ^ d ≤ sum.natAbs by omega)
        have hle' := Nat.mul_le_mul_right (10 ^ d) hr
        rw [← hq] at hle'
        have hcast : (a.natAbs : Int) ≤ roundHalfEven sum.natAbs (10 ^ d) * 10 ^ d := by
          exact_mod_cast hle'
        exact Int.le_natAbs.trans hcast

theorem le_add {a p s : Decimal} (h : a.add? p = some s) (hp : 0 ≤ p.toRat) : a.toRat ≤ s.toRat := by
  cases hza : a.isZero with
  | true =>
    simp only [add?, hza, if_true, Option.some.injEq] at h
    subst s
    rw [(isZero_iff a).1 hza]
    exact hp
  | false =>
    cases hzp : p.isZero with
    | true =>
      simp only [add?, hza, hzp, Bool.false_eq_true, if_false, if_true, Option.some.injEq] at h
      rw [h]
    | false =>
      rw [add?_of_nonzero hza hzp] at h
      obtain ⟨d, hd, hscale, hmag, hsign, hbig⟩ := fit?_eq_some (max_scale_le a p) h
      have hle : a.mantissa * 10 ^ (Nat.max a.scale p.scale - a.scale) ≤ alignedSum a p := by
        have hm := (toRat_nonneg_iff p).1 hp
        have : 0 ≤ p.mantissa * 10 ^ (Nat.max a.scale p.scale - p.scale) := by positivity
        unfold alignedSum
        omega
      have habs : (a.mantissa * 10 ^ (Nat.max a.scale p.scale - a.scale)).natAbs =
          a.magnitude * 10 ^ (Nat.max a.scale p.scale - a.scale) := by
        rw [Int.natAbs_mul, mantissa_natAbs, Int.natAbs_pow]
        rfl
      have hround := aligned_le_rounded _ _ habs a.magnitude_lt hle hbig
      have hs : s.mantissa = if alignedSum a p < 0
          then -(roundHalfEven (alignedSum a p).natAbs (10 ^ d) : Int)
          else roundHalfEven (alignedSum a p).natAbs (10 ^ d) := by
        simpa using fit?_mantissa hmag hsign
      rw [← hs] at hround
      rw [aligned_toRat (Nat.le_max_left a.scale p.scale),
        aligned_toRat (show s.scale ≤ Nat.max a.scale p.scale by omega), hscale,
        Nat.sub_sub_self hd]
      gcongr

private theorem add?_nonneg {a b s : Decimal} (h : a.add? b = some s) (hsum : 0 ≤ a.toRat + b.toRat) :
    0 ≤ s.toRat := by
  cases hza : a.isZero with
  | true =>
    simp only [add?, hza, if_true, Option.some.injEq] at h
    rw [(isZero_iff a).1 hza, zero_add, h] at hsum
    exact hsum
  | false =>
    cases hzb : b.isZero with
    | true =>
      simp only [add?, hza, hzb, Bool.false_eq_true, if_false, if_true, Option.some.injEq] at h
      rw [(isZero_iff b).1 hzb, add_zero, h] at hsum
      exact hsum
    | false =>
      rw [add?_of_nonzero hza hzb] at h
      obtain ⟨d, -, -, -, hsign, -⟩ := fit?_eq_some (max_scale_le a b) h
      rw [alignedSum_toRat, le_div_iff₀ (by positivity), zero_mul, Int.cast_nonneg_iff] at hsum
      apply toRat_nonneg_of_sign
      rw [hsign, decide_eq_false (not_lt.2 hsum), Bool.false_and]

theorem sub?_nonneg {a b s : Decimal} (h : a.sub? b = some s) (hle : b ≤ a) : 0 ≤ s.toRat := by
  rw [le_iff_toRat] at hle
  apply add?_nonneg h
  rw [toRat_neg]
  linarith

private theorem fit?_zero {scale : Nat} (hs : scale ≤ maxScale) (negative : Bool) :
    ∃ z, fit? negative 0 scale = some z ∧ z.isZero = true := by
  have hdigits : excessDigits 0 = 0 := by
    unfold excessDigits
    rfl
  have hsign : 0 < mantissaBound ∧ scale ≤ maxScale := ⟨by decide, hs⟩
  refine ⟨⟨false, 0, scale, hsign.1, hs⟩, ?_, rfl⟩
  simp [fit?, hdigits, Nat.sub_eq_zero_of_le hs, roundHalfEven, ofMagnitude?, ofSigned?, hsign]

theorem sub?_of_toRat_eq {a b : Decimal} (h : a.toRat = b.toRat) :
    ∃ z, a.sub? b = some z ∧ z.isZero = true := by
  unfold sub?
  cases hza : a.isZero with
  | true =>
    refine ⟨-b, by simp [add?, hza], ?_⟩
    rw [isZero_iff, toRat_neg, ← h, (isZero_iff a).1 hza, neg_zero]
  | false =>
    have hzb : (-b).isZero = false := by
      rw [Bool.eq_false_iff, ne_eq, isZero_iff] at hza ⊢
      rwa [toRat_neg, ← h, neg_eq_zero]
    have hsum := alignedSum_toRat a (-b)
    rw [toRat_neg, h, add_neg_cancel, eq_comm, div_eq_zero_iff,
      or_iff_left (by positivity), Int.cast_eq_zero] at hsum
    rw [add?_of_nonzero hza hzb, hsum]
    exact fit?_zero (max_scale_le a (-b)) _

theorem div?_of_isZero {a b : Decimal} (ha : a.isZero = true) (hb : b.isZero = false) :
    a.div? b = some zero := by
  simp [div?, ha, hb]

theorem div?_nonneg {a b q : Decimal} (h : a.div? b = some q) (ha : 0 ≤ a.toRat)
    (hb : 0 < b.toRat) : 0 ≤ q.toRat := by
  have hzb : b.isZero = false := by
    rw [Bool.eq_false_iff, ne_eq, isZero_iff]
    exact hb.ne'
  cases hza : a.isZero with
  | true =>
    rw [div?_of_isZero hza hzb, Option.some.injEq] at h
    simp [← h]
  | false =>
    have hpos : 0 < a.toRat := by
      rw [Bool.eq_false_iff, ne_eq, isZero_iff] at hza
      exact lt_of_le_of_ne ha (Ne.symm hza)
    simp only [div?, hza, hzb, sign_of_toRat_pos hpos, sign_of_toRat_pos hb, Bool.false_eq_true,
      if_false] at h
    split at h
    · cases h
    · exact toRat_nonneg_of_sign (ofMagnitude?_eq_some h).2.2

end SignalDesk.Decimal
