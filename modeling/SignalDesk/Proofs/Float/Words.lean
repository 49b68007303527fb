import SignalDesk.Proofs.Float.Positive

/-!
# Words as floats

A cut rounds to the nearest mantissa, so larger words are read as floats that are not smaller. Which
of two words is the larger one can be told from floats that differ.
-/

namespace SignalDesk.FloatValue

open Float.Model (UnpackedFloat Format)
open Float.Model.UnpackedFloat (Sign Accuracy ExtendedMantissa)

/-- The two bits below a mantissa tell how large the rest is that was cut off with `k` bits. -/
structure Residue (em : ExtendedMantissa) (k rest : ℕ) : Prop where
  lt : rest < 2 ^ k
  half : em.roundBit = true ↔ 2 ^ k ≤ 2 * rest
  exact : em.stickyBit = false → rest = 0 ∨ 2 * rest = 2 ^ k

theorem Residue.shiftRightOne {em : ExtendedMantissa} {k rest : ℕ} (h : Residue em k rest) :
    Residue em.shiftRightOne (k + 1) (2 ^ k * (em.mantissa % 2) + rest) := by
  have hlt := h.lt
  have hpower : 2 ^ (k + 1) = 2 * 2 ^ k := by rw [pow_succ, mul_comm]
  have hround : em.shiftRightOne.roundBit = (em.mantissa % 2 != 0) := rfl
  have hexact : em.shiftRightOne.stickyBit = false → rest = 0 := by
    intro hnone
    obtain ⟨hshort, hsticky⟩ := Bool.or_eq_false_iff.1 hnone
    have hhalf := h.half
    have hcut := h.exact hsticky
    rw [hshort, Bool.false_eq_true, false_iff] at hhalf
    omega
  rcases Nat.mod_two_eq_zero_or_one em.mantissa with hbit | hbit
  · rw [hbit] at hround ⊢
    rw [mul_zero, zero_add]
    refine ⟨by omega, ?_, fun hnone => .inl (hexact hnone)⟩
    rw [hround, bne_self_eq_false, Bool.false_eq_true, false_iff]
    omega
  · rw [hbit] at hround ⊢
    rw [mul_one]
    refine ⟨by omega, ?_, fun hnone => .inr (by rw [hexact hnone]; omega)⟩
    rw [hround, show (1 != 0) = true from rfl, eq_self, true_iff]
    omega

private theorem residue_shiftRight (m k : ℕ) :
    Residue ((⟨m, false, false⟩ : ExtendedMantissa) >>> k) k (m % 2 ^ k) := by
  induction k with
  | zero =>
    rw [pow_zero, Nat.mod_one]
    refine ⟨one_pos, ?_, fun _ => .inl rfl⟩
    show false = true ↔ 2 ^ 0 ≤ 2 * 0
    simp
  | succ k ih =>
    have hmantissa := mantissa_shiftRight ⟨m, false, false⟩ k
    have hrest : m % 2 ^ (k + 1) = 2 ^ k * (m / 2 ^ k % 2) + m % 2 ^ k := by
      rw [Nat.pow_succ, Nat.mod_mul, add_comm]
    have hstep := ih.shiftRightOne
    rw [hmantissa] at hstep
    rw [hrest]
    exact hstep

theorem Residue.nearest {em : ExtendedMantissa} {k rest : ℕ} (h : Residue em k rest) :
    2 * (em.mantissa * 2 ^ k + rest) ≤ 2 * (em.roundedMantissa * 2 ^ k) + 2 ^ k ∧
      2 * (em.roundedMantissa * 2 ^ k) ≤ 2 * (em.mantissa * 2 ^ k + rest) + 2 ^ k := by
  obtain ⟨m, round, sticky⟩ := em
  obtain ⟨hlt, hhalf, hexact⟩ := h
  dsimp only at hhalf hexact ⊢
  cases round with
  | false =>
    have hrounded : ExtendedMantissa.roundedMantissa ⟨m, false, sticky⟩ = m := by
      cases sticky <;> rfl
    simp only [Bool.false_eq_true, false_iff] at hhalf
    rw [hrounded]
    omega
  | true =>
    simp only [true_iff] at hhalf
    cases sticky with
    | false =>
      have hrounded : ExtendedMantissa.roundedMantissa ⟨m, true, false⟩ = m + m % 2 := rfl
      have htie : 2 * rest = 2 ^ k := (hexact rfl).resolve_left (by omega)
      rw [hrounded]
      rcases Nat.mod_two_eq_zero_or_one m with hbit | hbit <;> rw [hbit, add_mul] <;> omega
    | true =>
      have hrounded : ExtendedMantissa.roundedMantissa ⟨m, true, true⟩ = m + 1 := rfl
      rw [hrounded, add_mul]
      omega

private theorem cut_nearest (m k : ℕ) :
    2 * m ≤ 2 * (cut m k .exact * 2 ^ k) + 2 ^ k ∧ 2 * (cut m k .exact * 2 ^ k) ≤ 2 * m + 2 ^ k := by
  have hnear := (residue_shiftRight m k).nearest
  rwa [mantissa_shiftRight, Nat.div_add_mod'] at hnear

private theorem cut_mono {m n : ℕ} (h : m ≤ n) (k : ℕ) : cut m k .exact ≤ cut n k .exact := by
  by_contra hcut
  have hm := (cut_nearest m k).2
  have hn := (cut_nearest n k).1
  have hstep : cut n k .exact * 2 ^ k + 2 ^ k ≤ cut m k .exact * 2 ^ k := by
    rw [← Nat.succ_mul]
    exact Nat.mul_le_mul_right _ (not_le.1 hcut)
  obtain rfl : m = n := by omega
  exact hcut le_rfl

private theorem toFloat_of_short {n : UInt64} (h : n.toNat < 2 ^ 53) :
    n.toFloat.isFinite = true ∧ value n.toFloat = n.toNat := by
  rcases n.toNat.eq_zero_or_pos with hzero | hpos
  · obtain rfl : n = 0 := UInt64.toNat_inj.1 hzero
    exact ⟨rfl, by rw [hzero, Nat.cast_zero]; exact value_zero⟩
  · obtain ⟨m, e, hword, hvalue⟩ := holds_toFloat hpos h
    have hn : n.toNat.toUInt64 = n := UInt64.ofNat_toNat
    rw [hn] at hword
    exact ⟨hword.finite, by rw [hword.value_eq, hvalue]⟩

private theorem toFloat_of_long {n : UInt64} (h : 2 ^ 53 ≤ n.toNat) :
    n.toFloat.isFinite = true ∧
      value n.toFloat = magnitude (cut n.toNat (n.toNat.log2 - 52) .exact) (n.toNat.log2 - 52 : ℕ) := by
  have hlog : 53 ≤ n.toNat.log2 := (Nat.le_log2 (by omega)).2 h
  have htarget : target n.toNat 0 = 0 + (n.toNat.log2 - 52 : ℕ) := by
    unfold target
    omega
  have hword : n.toFloat = ⟨Float.Model.pack
      (UnpackedFloat.roundWithAccuracy .binary64 .positive n.toNat 0 .exact)⟩ := by
    have hpos : compare (n.toNat : ℤ) 0 = .gt := compare_gt_iff_gt.2 (by omega)
    have hshift : (0 - target n.toNat 0).toNat = 0 := by omega
    show (⟨Float.Model.pack (UnpackedFloat.normalize .binary64 n.toNat 0 .positive)⟩ : Float) = _
    unfold UnpackedFloat.normalize
    rw [hpos]
    show (⟨Float.Model.pack (UnpackedFloat.roundWithAccuracy .binary64 .positive
      (n.toNat <<< (0 - target n.toNat 0).toNat) (0 - (0 - target n.toNat 0).toNat) .exact)⟩ : Float) = _
    rw [hshift, Nat.shiftLeft_zero]
    rfl
  have hsmall : (n.toNat : ℚ) ≤ largest := by
    have hpower : (2 : ℚ) ^ (64 : ℤ) ≤ 2 ^ (971 : ℤ) := zpow_le_zpow_right₀ one_le_two (by decide)
    have hone : (1 : ℚ) ≤ (2 ^ 53 - 1 : ℕ) := by norm_num
    calc (n.toNat : ℚ) ≤ 2 ^ (64 : ℤ) := by exact_mod_cast n.toNat_lt.le
      _ ≤ 2 ^ (971 : ℤ) := hpower
      _ ≤ largest := le_mul_of_one_le_left (by positivity) hone
  rw [hword]
  rcases pack_roundWithAccuracy_cases .positive htarget (stands_exact n.toNat 0) with hcut | ⟨-, hlarge⟩
  · rw [htarget, zero_add] at hcut
    exact hcut
  · rw [magnitude_zero_right] at hlarge
    exact absurd hsmall (not_le.2 hlarge)

private theorem toFloat_mono {m n : UInt64} (h : m ≤ n) : m.toFloat ≤ n.toFloat := by
  have hle : m.toNat ≤ n.toNat := UInt64.le_iff_toNat_le.1 h
  rcases lt_or_ge m.toNat (2 ^ 53) with hm | hm
  · obtain ⟨hfinite, hvalue⟩ := toFloat_of_short hm
    apply (places_toFloat n).ge _ hfinite
    rw [hvalue]
    exact_mod_cast hle
  · have hn : 2 ^ 53 ≤ n.toNat := hm.trans hle
    obtain ⟨hmfinite, hmvalue⟩ := toFloat_of_long hm
    obtain ⟨hnfinite, hnvalue⟩ := toFloat_of_long hn
    rcases lt_or_ge m.toNat.log2 n.toNat.log2 with hlog | hlog
    · -- a power of two lies between words of different length
      have hlength : n.toNat.log2 < 64 := (Nat.log2_lt (by omega)).2 n.toNat_lt
      obtain ⟨w, hw, hwvalue⟩ := exists_two_zpow (e := n.toNat.log2) (by omega) (by omega)
      rw [zpow_natCast] at hwvalue
      have hbelow : m.toNat < 2 ^ n.toNat.log2 := (Nat.log2_lt (by omega)).1 hlog
      have habove : 2 ^ n.toNat.log2 ≤ n.toNat := Nat.log2_self_le (by omega)
      have hmw := (places_toFloat m).le w hw (by rw [hwvalue]; exact_mod_cast hbelow.le)
      have hwn := (places_toFloat n).ge w hw (by rw [hwvalue]; exact_mod_cast habove)
      rw [le_iff hmfinite hw] at hmw
      rw [le_iff hw hnfinite] at hwn
      exact (le_iff hmfinite hnfinite).2 (hmw.trans hwn)
    · have heq : m.toNat.log2 = n.toNat.log2 := by
        refine le_antisymm ?_ hlog
        rw [Nat.le_log2 (by omega)]
        exact (Nat.log2_self_le (by omega)).trans hle
      rw [le_iff hmfinite hnfinite, hmvalue, hnvalue, heq]
      exact mul_le_mul_of_nonneg_right (by exact_mod_cast cut_mono hle _) (zpow_nonneg two_pos.le _)

theorem lt_of_toFloat_lt {m n : UInt64} (h : m.toFloat < n.toFloat) : m < n :=
  UInt64.not_le.1 fun hle => float_not_lt_of_le (toFloat_mono hle) h

end SignalDesk.FloatValue
