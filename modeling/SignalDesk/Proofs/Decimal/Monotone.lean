import SignalDesk.Proofs.Decimal.Quotient

/-!
# Products and quotients in order

Rounding half to even keeps the order of what is rounded, also where one product has to give up more
places than another. A hundredth of an amount has all the places that it needs or the last one there is,
so that it is rounded at one place whatever the scale. A change of sign goes through both operations.
-/

namespace SignalDesk

private theorem roundHalfEven_mono {n m : Nat} (d : Nat) (h : n ≤ m) :
    roundHalfEven n d ≤ roundHalfEven m d := by
  have hquotient := Nat.div_le_div_right (c := d) h
  rcases Nat.eq_or_lt_of_le hquotient with heq | hlt
  · have hrest : n % d ≤ m % d := by
      have hn := Nat.div_add_mod n d
      have hm := Nat.div_add_mod m d
      rw [heq] at hn
      omega
    unfold roundHalfEven
    rw [heq]
    grind
  · exact (roundHalfEven_le n d).trans (Nat.le_trans hlt (le_roundHalfEven m d))

namespace Decimal

private theorem ofSigned?_neg {negative : Bool} {m scale : Nat} (hm : m ≠ 0) :
    ofSigned? (!negative) m scale = (ofSigned? negative m scale).map Neg.neg := by
  unfold ofSigned?
  split
  · have hzero : (m == 0) = false := beq_eq_false_iff_ne.2 hm
    have hflip : (negative != !false) = !negative := by cases negative <;> rfl
    show some _ = some (Decimal.neg _)
    simp only [Decimal.neg, isZero, hzero, hflip]
  · rfl

private theorem ofMagnitude?_neg (negative : Bool) (m scale : Nat) :
    ofMagnitude? (!negative) m scale = (ofMagnitude? negative m scale).map Neg.neg := by
  unfold ofMagnitude?
  by_cases hm : m = 0
  · subst hm
    simp only [bne_self_eq_false, Bool.and_false, ofSigned?]
    split <;> rfl
  · have hshown : (m != 0) = true := bne_iff_ne.2 hm
    rw [hshown, Bool.and_true, Bool.and_true, ofSigned?_neg hm]

private theorem fit?_neg (negative : Bool) (n scale : Nat) :
    fit? (!negative) n scale = (fit? negative n scale).map Neg.neg := by
  unfold fit?
  simp only [ofMagnitude?_neg]
  split
  · split <;> rfl
  · split <;> rfl

@[simp] theorem isZero_neg (a : Decimal) : (-a).isZero = a.isZero := rfl

private theorem isNegative_neg {a : Decimal} (h : a.isZero = false) :
    (-a).isNegative = !a.isNegative := by
  show (a.isNegative != !a.isZero) = !a.isNegative
  rw [h]
  cases a.isNegative <;> rfl

private theorem bne_not_right (s t : Bool) : (s != !t) = !(s != t) := by
  cases s <;> cases t <;> rfl

private theorem bne_not_left (s t : Bool) : ((!s) != t) = !(s != t) := by
  cases s <;> cases t <;> rfl

theorem mul?_neg (a b : Decimal) : a.mul? (-b) = (a.mul? b).map Neg.neg := by
  unfold mul?
  rw [isZero_neg]
  cases hb : b.isZero with
  | true =>
    rw [Bool.or_true, if_pos rfl, if_pos rfl]
    rfl
  | false =>
    have hmagnitude : (-b).magnitude = b.magnitude := rfl
    have hshort : (-b).isShort = b.isShort := rfl
    simp only [isNegative_neg hb, scale_neg, hmagnitude, hshort, bne_not_right, fit?_neg]
    split
    · rfl
    · rw [apply_ite (Option.map Neg.neg)]
      rfl

theorem neg_div? (a b : Decimal) : (-a).div? b = (a.div? b).map Neg.neg := by
  unfold div?
  rw [isZero_neg]
  split
  · rfl
  · cases ha : a.isZero with
    | true => rfl
    | false =>
      have hmagnitude : (-a).magnitude = a.magnitude := rfl
      simp only [isNegative_neg ha, scale_neg, hmagnitude, bne_not_left, ofMagnitude?_neg,
        Bool.false_eq_true, if_false]
      split <;> rfl

theorem ofInt64_neg {n m : Int64} (h : m.toInt = -n.toInt) : ofInt64 m = -ofInt64 n := by
  have hsign : (decide (n.toInt < 0) != !(n.toInt.natAbs == 0)) = decide (-n.toInt < 0) := by
    rcases lt_trichotomy n.toInt 0 with hneg | hzero | hpos
    · rw [decide_eq_true hneg, beq_eq_false_iff_ne.2 (by omega), decide_eq_false (by omega)]
      rfl
    · rw [hzero]
      rfl
    · rw [decide_eq_false (by omega), beq_eq_false_iff_ne.2 (by omega), decide_eq_true (by omega)]
      rfl
  show _ = Decimal.neg (ofInt64 n)
  simp only [ofInt64, Decimal.neg, isZero, h, Int.natAbs_neg, hsign]

/-- A result beyond the mantissa bound is rounded to it or beyond. -/
private theorem bound_le_roundHalfEven {n d : Nat} (h : (2 * mantissaBound - 1) * 10 ^ d ≤ 2 * n) :
    mantissaBound ≤ roundHalfEven n (10 ^ d) := by
  have hp : 0 < 10 ^ d := by positivity
  generalize 10 ^ d = p at h hp ⊢
  have hdiv := Nat.div_add_mod n p
  have hmod := Nat.mod_lt n hp
  rcases Nat.lt_or_ge (n / p) mantissaBound with hlt | hge
  · -- the quotient is the largest mantissa, which is odd, and the rest is half of the divisor or more
    have hlast : n / p = mantissaBound - 1 := by
      by_contra hne
      have hle : n / p + 2 ≤ mantissaBound := by
        clear hdiv hmod h
        generalize n / p = quotient at hlt hne
        omega
      have hproduct := Nat.mul_le_mul_left p hle
      rw [Nat.mul_add] at hproduct
      have hscaled : (2 * mantissaBound - 1) * p = 2 * (p * mantissaBound) - p := by
        rw [Nat.sub_mul, Nat.one_mul, Nat.mul_assoc, Nat.mul_comm mantissaBound p]
      omega
    have hhalf : p ≤ 2 * (n % p) := by
      rw [hlast] at hdiv
      unfold mantissaBound at h hdiv
      norm_num at h hdiv
      omega
    have hodd : (mantissaBound - 1) % 2 = 1 := by decide
    have hpred : mantissaBound - 1 + 1 = mantissaBound := by decide
    unfold roundHalfEven
    rw [if_neg (by omega), hlast, hodd, hpred]
    split <;> exact le_rfl
  · exact hge.trans (le_roundHalfEven n p)

/-- Fitting keeps the order of exact results of one scale. -/
theorem fit?_abs_mono {negative negative' : Bool} {n m scale : Nat} {a b : Decimal}
    (hs : scale ≤ maxScale) (h : n ≤ m) (ha : fit? negative n scale = some a)
    (hb : fit? negative' m scale = some b) : |a.toRat| ≤ |b.toRat| := by
  obtain ⟨d, hd, hscale, hmag, -, hlarge⟩ := fit?_eq_some hs ha
  obtain ⟨e, he, hscale', hmag', -, hlarge'⟩ := fit?_eq_some hs hb
  rw [abs_toRat, abs_toRat, div_le_div_iff₀ (by positivity) (by positivity)]
  norm_cast
  rw [hscale, hscale', hmag, hmag']
  rcases Nat.lt_trichotomy d e with hlt | rfl | hgt
  · -- the larger one has given up more places and lies above all that fit with fewer
    obtain ⟨f, rfl⟩ : ∃ f, e = f + 1 := ⟨e - 1, by omega⟩
    have hbig := hlarge'.resolve_left (Nat.succ_ne_zero f)
    rw [Nat.add_sub_cancel] at hbig
    have hupper := bound_lt_roundHalfEven hbig
    have hlower : roundHalfEven n (10 ^ d) * 10 ^ d ≤ mantissaBound * 10 ^ f := by
      rw [← hmag]
      exact Nat.mul_le_mul a.magnitude_lt.le (Nat.pow_le_pow_right (by decide) (by omega))
    have hplaces : 10 ^ (scale - (f + 1)) * 10 ^ (f + 1) = 10 ^ (scale - d) * 10 ^ d := by
      rw [← pow_add, ← pow_add, Nat.sub_add_cancel he, Nat.sub_add_cancel hd]
    have hpos : 0 < 10 ^ (f + 1) * 10 ^ d := by positivity
    refine Nat.le_of_mul_le_mul_right ?_ hpos
    calc roundHalfEven n (10 ^ d) * 10 ^ (scale - (f + 1)) * (10 ^ (f + 1) * 10 ^ d)
        = roundHalfEven n (10 ^ d) * 10 ^ d * (10 ^ (scale - (f + 1)) * 10 ^ (f + 1)) := by ring
      _ ≤ roundHalfEven m (10 ^ (f + 1)) * 10 ^ (f + 1) * (10 ^ (scale - d) * 10 ^ d) := by
        rw [hplaces]
        exact Nat.mul_le_mul_right _ (hlower.trans hupper.le)
      _ = roundHalfEven m (10 ^ (f + 1)) * 10 ^ (scale - d) * (10 ^ (f + 1) * 10 ^ d) := by ring
  · exact Nat.mul_le_mul_right _ (roundHalfEven_mono _ h)
  · -- what has to give up places for the smaller one is too large to fit with fewer
    exfalso
    have hbig := hlarge.resolve_left (by omega)
    have hfits := b.magnitude_lt
    rw [hmag'] at hfits
    have hpower : 10 ^ e ≤ 10 ^ (d - 1) := Nat.pow_le_pow_right (by decide) (by omega)
    refine absurd (bound_le_roundHalfEven ((Nat.mul_le_mul_left _ hpower).trans (hbig.trans ?_)))
      (Nat.not_le.2 hfits)
    omega

private theorem mul?_ofInt64 {a : Decimal} {k : Int64} (ha : a.isZero = false) (hk : k.toInt ≠ 0) :
    a.mul? (ofInt64 k) =
      fit? (a.isNegative != decide (k.toInt < 0)) (a.magnitude * k.toInt.natAbs) a.scale := by
  have hfactor : (ofInt64 k).isZero = false := beq_eq_false_iff_ne.2 (by simpa [ofInt64] using hk)
  have hscale : a.scale + (ofInt64 k).scale = a.scale := rfl
  have hplaces : ¬47 < a.scale := by
    have := a.scale_le
    unfold maxScale at this
    omega
  unfold mul?
  simp only [ha, hfactor, hscale, hplaces, decide_false, Bool.or_self, Bool.false_and,
    Bool.false_eq_true, if_false]
  rfl

theorem mul?_of_isZero {a b : Decimal} (h : a.isZero = true ∨ b.isZero = true) :
    a.mul? b = some zero := by
  unfold mul?
  rw [if_pos (Bool.or_eq_true_iff.2 h)]

private theorem ofInt64_isZero {k : Int64} (hk : k.toInt = 0) : (ofInt64 k).isZero = true := by
  rw [isZero_iff, toRat_ofInt64, hk, Int.cast_zero]

theorem mul?_abs_mono {a b c : Decimal} {x y : Int64} (hxy : x.toInt.natAbs ≤ y.toInt.natAbs)
    (hb : a.mul? (ofInt64 x) = some b) (hc : a.mul? (ofInt64 y) = some c) :
    |b.toRat| ≤ |c.toRat| := by
  have hnothing (h : a.isZero = true ∨ (ofInt64 x).isZero = true) : |b.toRat| ≤ |c.toRat| := by
    rw [mul?_of_isZero h, Option.some.injEq] at hb
    rw [← hb, toRat_zero, abs_zero]
    exact abs_nonneg _
  cases hza : a.isZero with
  | true => exact hnothing (.inl hza)
  | false =>
    by_cases hx : x.toInt = 0
    · exact hnothing (.inr (ofInt64_isZero hx))
    · rw [mul?_ofInt64 hza hx] at hb
      rw [mul?_ofInt64 hza (by omega)] at hc
      exact fit?_abs_mono a.scale_le (Nat.mul_le_mul_left _ hxy) hb hc

private theorem sign_of_nonneg {a : Decimal} (ha : 0 ≤ a.toRat) (hz : a.isZero = false) :
    a.isNegative = false := by
  rw [Bool.eq_false_iff, ne_eq, isZero_iff] at hz
  exact sign_of_toRat_pos (lt_of_le_of_ne ha (Ne.symm hz))

theorem mul?_nonneg {a b r : Decimal} (hscale : a.scale + b.scale ≤ maxScale)
    (h : a.mul? b = some r) (ha : 0 ≤ a.toRat) (hb : 0 ≤ b.toRat) : 0 ≤ r.toRat := by
  cases hz : a.isZero || b.isZero with
  | true =>
    rw [mul?_of_isZero (Bool.or_eq_true_iff.1 hz), Option.some.injEq] at h
    rw [← h, toRat_zero]
  | false =>
    obtain ⟨hza, hzb⟩ := Bool.or_eq_false_iff.1 hz
    have hplaces : ¬47 < a.scale + b.scale := by
      unfold maxScale at hscale
      omega
    simp only [mul?, hz, sign_of_nonneg ha hza, sign_of_nonneg hb hzb, decide_eq_false hplaces,
      Bool.false_and, Bool.false_eq_true, if_false] at h
    obtain ⟨_, _, _, _, hsign, _⟩ := fit?_eq_some hscale h
    exact toRat_nonneg_of_sign (by rw [hsign, bne_self_eq_false, Bool.false_and])

theorem mul?_nonpos {a b r : Decimal} (hscale : a.scale + b.scale ≤ maxScale)
    (h : a.mul? b = some r) (ha : 0 ≤ a.toRat) (hb : b.toRat ≤ 0) : r.toRat ≤ 0 := by
  have hopposite : a.mul? (-b) = some (-r) := by rw [mul?_neg, h, Option.map_some]
  have hplaces : a.scale + (-b).scale ≤ maxScale := hscale
  have := mul?_nonneg hplaces hopposite ha (by rw [toRat_neg]; linarith)
  rw [toRat_neg] at this
  linarith

private theorem roundHalfEven_eq_add (n d : Nat) :
    n / d + (decide (d < 2 * (n % d)) || 2 * (n % d) == d && n / d % 2 == 1).toNat =
      roundHalfEven n d := by
  unfold roundHalfEven
  rcases lt_trichotomy (2 * (n % d)) d with hlt | heq | hgt
  · rw [if_pos hlt, decide_eq_false hlt.le.not_gt, beq_eq_false_iff_ne.2 hlt.ne]
    rfl
  · rw [if_neg heq.not_lt, if_neg heq.not_gt, decide_eq_false heq.not_gt, heq, beq_self_eq_true]
    rcases Nat.mod_two_eq_zero_or_one (n / d) with h | h <;> rw [h] <;> rfl
  · rw [if_neg hgt.le.not_gt, if_pos hgt, decide_eq_true hgt]
    rfl

private theorem roundRest?_hundred {p : Nat} (hp : p < 10 * mantissaBound) (scale : Int) :
    roundRest? 100 (p / 100) (p % 100) scale = some (roundHalfEven p 100, scale) := by
  have hfits : roundHalfEven p 100 < mantissaBound := by
    have hup := roundHalfEven_le p 100
    unfold mantissaBound at *
    omega
  unfold roundRest?
  simp only [roundHalfEven_eq_add, if_pos hfits]

/-- A quotient by a hundred, rounded at the last place that there is. -/
structure Hundredth (p : Nat) (scale : Int) (quotient : Nat × Int) : Prop where
  nonneg : 0 ≤ quotient.2
  places : quotient.2 ≤ maxScale
  value : quotient.1 * 10 ^ (maxScale - quotient.2).toNat =
    roundHalfEven (p * 10 ^ (maxScale - scale).toNat) 100

private theorem Hundredth.of_exact {p : Nat} {scale : Int} {quotient : Nat × Int} {x : Nat}
    (hscale : 0 ≤ scale) (hplaces : quotient.2 = scale + x) (hlast : quotient.2 ≤ maxScale)
    (hvalue : 100 * quotient.1 = p * 10 ^ x) : Hundredth p scale quotient where
  nonneg := by omega
  places := hlast
  value := by
    have hpower : (maxScale - scale).toNat = x + (maxScale - quotient.2).toNat := by omega
    rw [hpower, pow_add, ← Nat.mul_assoc, ← hvalue, Nat.mul_assoc,
      roundHalfEven_of_dvd (by decide) (Nat.dvd_mul_right 100 _), Nat.mul_div_cancel_left _ (by decide)]

private theorem extend?_exact {divisor value : Nat} {scale : Int} (h : 0 ≤ scale) :
    extend? divisor value 0 scale = some (value, scale) := by
  unfold extend?
  rw [if_pos rfl, if_pos h]

private theorem extend?_hundred_last {p : Nat} {quotient : Nat × Int} (hp : p < 10 * mantissaBound)
    (h : extend? 100 (p / 100) (p % 100) maxScale = some quotient) :
    Hundredth p maxScale quotient := by
  rcases Nat.eq_zero_or_pos (p % 100) with hrest | hrest
  · rw [hrest, extend?_exact (by decide), Option.some.injEq] at h
    subst h
    refine .of_exact (by decide) (add_zero _).symm le_rfl ?_
    rw [pow_zero]
    simp only
    omega
  · unfold extend? at h
    rw [if_neg (by omega), if_pos le_rfl, roundRest?_hundred hp, Option.some.injEq] at h
    subst h
    exact ⟨Int.natCast_nonneg maxScale, le_rfl, by simp⟩

private theorem growth_hundredth {p : Nat} {scale : Int} (hp : p < mantissaBound)
    (hlt : scale < maxScale) :
    growth (p / 100) scale = 1 ∧ scale + 1 = maxScale ∨ 2 ≤ growth (p / 100) scale := by
  have hvalue : p / 100 < mantissaBound := (Nat.div_le_self p 100).trans_lt hp
  obtain ⟨hroom, -, -, hmaximal⟩ := growth_le hvalue hlt.le
  generalize growth (p / 100) scale = x at hroom hmaximal
  by_contra hless
  have hfull := hmaximal (by omega) (by omega)
  have hpower : 10 ^ (x + 1) ≤ 10 ^ 2 := Nat.pow_le_pow_right (by decide) (by omega)
  have := Nat.mul_le_mul_left (p / 100) hpower
  omega

private theorem extend?_hundred_grow {p x : Nat} {scale : Int} (hscale : 0 ≤ scale)
    (hlt : scale < maxScale) (hrest : 0 < p % 100) (hx : growth (p / 100) scale = x) (hpos : 0 < x) :
    extend? 100 (p / 100) (p % 100) scale =
      if p * 10 ^ x / 100 < mantissaBound then
        extend? 100 (p * 10 ^ x / 100) (p * 10 ^ x % 100) (scale + x)
      else dropDigit? (p * 10 ^ x / 100) (p * 10 ^ x % 100 != 0) (scale + x) := by
  have hscaled : p / 100 * 10 ^ x + p % 100 * 10 ^ x / 100 = p * 10 ^ x / 100 := by
    nth_rewrite 3 [← Nat.div_add_mod p 100]
    rw [Nat.add_mul, Nat.mul_assoc, Nat.mul_add_div (by decide)]
  have hmod : p % 100 * 10 ^ x % 100 = p * 10 ^ x % 100 := by
    rw [Nat.mul_mod, Nat.mod_mod, ← Nat.mul_mod]
  rw [extend?]
  simp only [hx, Nat.pow_eq, hscaled, hmod]
  rw [if_neg (by omega), if_neg (by omega), if_neg (by omega), if_neg (by omega)]

private theorem dropDigit?_ten_mul {n : Nat} {scale : Int} (h : 0 < scale) :
    dropDigit? (10 * n) false scale = some (n, scale - 1) := by
  rw [dropDigit?, if_neg (by omega)]
  simp only [Nat.mul_mod_right, Nat.mul_div_cancel_left _ (show 0 < 10 by decide)]
  rfl

private theorem extend?_hundred {p : Nat} {scale : Int} {quotient : Nat × Int}
    (hp : p < mantissaBound) (hscale : 0 ≤ scale ∧ scale ≤ maxScale)
    (h : extend? 100 (p / 100) (p % 100) scale = some quotient) : Hundredth p scale quotient := by
  rcases hscale.2.eq_or_lt with rfl | hlt
  · exact extend?_hundred_last (by omega) h
  rcases Nat.eq_zero_or_pos (p % 100) with hrest | hrest
  · rw [hrest, extend?_exact hscale.1, Option.some.injEq] at h
    subst h
    refine .of_exact hscale.1 (add_zero _).symm hscale.2 ?_
    simp only
    omega
  rcases growth_hundredth hp hlt with ⟨hgrowth, hlast⟩ | htwo
  · -- one more place, which is the last
    have hfits : p * 10 ^ 1 / 100 < mantissaBound := by omega
    rw [extend?_hundred_grow hscale.1 hlt hrest hgrowth one_pos, if_pos hfits, Nat.cast_one,
      hlast] at h
    have hquotient := extend?_hundred_last (by omega) h
    refine ⟨hquotient.nonneg, hquotient.places, hquotient.value.trans ?_⟩
    have hpower : (maxScale - scale).toNat = 1 := by omega
    rw [hpower, sub_self, Int.toNat_zero, pow_zero, mul_one]
  · -- two more places or beyond them, so that the quotient is exact
    obtain ⟨y, hgrowth⟩ : ∃ y, growth (p / 100) scale = y + 2 := ⟨_, (Nat.sub_add_cancel htwo).symm⟩
    have hroom := (growth_le ((Nat.div_le_self p 100).trans_lt hp) hscale.2).1
    rw [hgrowth] at hroom
    have hshift (z : Nat) : 100 * (p * 10 ^ z) = p * 10 ^ (z + 2) := by
      rw [pow_add]
      ring
    rw [extend?_hundred_grow hscale.1 hlt hrest hgrowth (by omega), ← hshift, Nat.mul_mod_right,
      Nat.mul_div_cancel_left _ (by decide)] at h
    split at h
    · rw [extend?_exact (by omega), Option.some.injEq] at h
      subst h
      exact .of_exact hscale.1 rfl hroom (hshift y)
    · rename_i hfull
      obtain ⟨z, rfl⟩ : ∃ z, y = z + 1 := by
        refine ⟨y - 1, (Nat.succ_pred_eq_of_ne_zero fun hzero => hfull ?_).symm⟩
        rwa [hzero, pow_zero, mul_one]
      have hten : p * 10 ^ (z + 1) = 10 * (p * 10 ^ z) := by
        rw [pow_succ]
        ring
      rw [hten, bne_self_eq_false, dropDigit?_ten_mul (by omega), Option.some.injEq] at h
      subst h
      exact .of_exact hscale.1 (x := z + 2) (by simp only; omega) (by simp only; omega) (hshift z)

/-- The magnitude of an amount in units of the last place that there is. -/
def units (a : Decimal) : Nat := a.magnitude * 10 ^ (maxScale - a.scale)

private theorem abs_toRat_eq_units (a : Decimal) : |a.toRat| = a.units / 10 ^ maxScale := by
  have hplaces : (10 : ℚ) ^ maxScale = 10 ^ (maxScale - a.scale) * 10 ^ a.scale := by
    rw [← pow_add, Nat.sub_add_cancel a.scale_le]
  rw [abs_toRat, units, hplaces]
  push_cast
  field_simp

private theorem units_le_iff (a b : Decimal) : a.units ≤ b.units ↔ |a.toRat| ≤ |b.toRat| := by
  rw [abs_toRat_eq_units, abs_toRat_eq_units, div_le_div_iff_of_pos_right (by positivity),
    Nat.cast_le]

private theorem Shortens.units {short quotient : Nat × Int} (h : Shortens short quotient)
    (hlast : quotient.2 ≤ maxScale) :
    short.1 * 10 ^ (maxScale - short.2.toNat) = quotient.1 * 10 ^ (maxScale - quotient.2).toNat := by
  have hplaces {scale : Int} (hle : scale ≤ maxScale) (n : Nat) :
      (n * 10 ^ (maxScale - scale).toNat : ℚ) = n / 10 ^ scale * 10 ^ maxScale := by
    rw [← zpow_natCast, Int.toNat_of_nonneg (by omega), zpow_sub₀ (by norm_num), zpow_natCast]
    ring
  have hnat : maxScale - short.2.toNat = (maxScale - short.2).toNat := by
    have := h.nonneg
    omega
  rw [hnat]
  have hvalue := hplaces (h.places.trans hlast) short.1
  rw [h.value, ← hplaces hlast] at hvalue
  exact_mod_cast hvalue

/-- A hundredth of an amount is rounded half to even at the last place, whatever its scale. -/
theorem div?_hundred {a r : Decimal} (h : a.div? hundred = some r) :
    r.units = roundHalfEven a.units 100 := by
  cases ha : a.isZero with
  | true =>
    rw [div?_of_isZero ha rfl, Option.some.injEq] at h
    have hmagnitude : a.magnitude = 0 := beq_iff_eq.1 ha
    rw [← h, units, units, hmagnitude]
    simp [zero, roundHalfEven]
  | false =>
    have hplaces : 0 ≤ (a.scale : Int) ∧ (a.scale : Int) ≤ maxScale :=
      ⟨Int.natCast_nonneg _, Int.ofNat_le.2 a.scale_le⟩
    have hhundred : hundred.isZero = false := rfl
    have hmagnitude : hundred.magnitude = 100 := rfl
    have hscale : (a.scale : Int) - hundred.scale = a.scale := sub_zero _
    have hsign : (a.isNegative != hundred.isNegative) = a.isNegative := Bool.bne_false _
    simp only [div?, ha, hhundred, hmagnitude, hscale, hsign, Bool.false_eq_true, if_false] at h
    split at h
    · cases h
    · rename_i quotient hextend
      have hquotient := extend?_hundred a.magnitude_lt hplaces hextend
      have hshort : Shortens (if a.magnitude % 100 = 0 then quotient else trim quotient) quotient := by
        split
        · exact ⟨hquotient.nonneg, le_rfl, le_rfl, rfl⟩
        · exact trim_shortens hquotient.nonneg
      generalize (if a.magnitude % 100 = 0 then quotient else trim quotient) = short at h hshort
      obtain ⟨hscale, hmag, -⟩ := ofMagnitude?_eq_some h
      have hnat : ((maxScale : Int) - (a.scale : Int)).toNat = maxScale - a.scale := by omega
      rw [units, hmag, hscale, hshort.units hquotient.places, hquotient.value, hnat, units]

theorem div?_hundred_abs_mono {a b r s : Decimal} (hab : |a.toRat| ≤ |b.toRat|)
    (hr : a.div? hundred = some r) (hs : b.div? hundred = some s) : |r.toRat| ≤ |s.toRat| := by
  rw [← units_le_iff, div?_hundred hr, div?_hundred hs]
  exact roundHalfEven_mono _ ((units_le_iff a b).2 hab)

theorem div?_nonpos {a b r : Decimal} (h : a.div? b = some r) (ha : a.toRat ≤ 0)
    (hb : 0 < b.toRat) : r.toRat ≤ 0 := by
  have hopposite : (-a).div? b = some (-r) := by rw [neg_div?, h, Option.map_some]
  have := div?_nonneg hopposite (by rw [toRat_neg]; linarith) hb
  rw [toRat_neg] at this
  linarith

end Decimal

end SignalDesk
