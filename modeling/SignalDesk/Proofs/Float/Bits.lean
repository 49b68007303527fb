import SignalDesk.FloatText
import SignalDesk.Proofs.Float.Operations

/-!
# The bits of a float

A float is put together from a sign, an exponent and a fraction, and unpacking takes them apart. So a
float is known by what it unpacks to, and the shape read off the bits is what it unpacks to.
-/

namespace SignalDesk.FloatValue

open Float.Model (UnpackedFloat Format)
open Float.Model.UnpackedFloat (Sign packComponents unpackSign unpackExponent unpackMantissa)

section

variable (b : BitVec Format.binary64.numBits)

private theorem toNat_unpackMantissa : (unpackMantissa b).toNat = b.toNat % 2 ^ 52 := by
  simp [unpackMantissa, BitVec.extractLsb_toNat]

private theorem toNat_unpackExponent : (unpackExponent b).toNat = b.toNat / 2 ^ 52 % 2 ^ 11 := by
  simp [unpackExponent, BitVec.extractLsb_toNat, Nat.shiftRight_eq_div_pow]

private theorem toNat_unpackSign : (unpackSign b).toNat = b.toNat / 2 ^ 63 := by
  have hb : b.toNat < 2 ^ 64 := b.isLt
  simp only [unpackSign, BitVec.toNat_cast, BitVec.extractLsb_toNat, Nat.shiftRight_eq_div_pow]
  show b.toNat / 2 ^ 63 % 2 = _
  omega

private theorem toBitVec_ofBitVec (v : BitVec 1) : (Sign.ofBitVec v).toBitVec = v := by
  revert v
  decide

private theorem packComponents_unpacked :
    packComponents .binary64 (Sign.ofBitVec (unpackSign b)) (unpackExponent b) (unpackMantissa b) =
      b := by
  have hb : b.toNat < 2 ^ 64 := b.isLt
  have hmantissa := toNat_unpackMantissa b
  have hexponent := toNat_unpackExponent b
  have hsign := toNat_unpackSign b
  apply BitVec.eq_of_toNat_eq
  unfold packComponents
  rw [toBitVec_ofBitVec, BitVec.toNat_append, ← Nat.shiftLeft_add_eq_or_of_lt (BitVec.isLt _),
    BitVec.toNat_append, ← Nat.shiftLeft_add_eq_or_of_lt (BitVec.isLt _), hsign, hexponent, hmantissa,
    Nat.shiftLeft_eq, Nat.shiftLeft_eq]
  show (b.toNat / 2 ^ 63 * 2 ^ 11 + b.toNat / 2 ^ 52 % 2 ^ 11) * 2 ^ 52 + b.toNat % 2 ^ 52 = b.toNat
  omega

private theorem packComponents_of_eq {exponent : BitVec 11} {mantissa : BitVec 52}
    (hexponent : unpackExponent b = exponent) (hmantissa : unpackMantissa b = mantissa) :
    packComponents .binary64 (Sign.ofBitVec (unpackSign b)) exponent mantissa = b := by
  rw [← hexponent, ← hmantissa]
  exact packComponents_unpacked b

end

private theorem toNat_leading (v : BitVec 52) : (1#1 ++ v).toNat = 2 ^ 52 + v.toNat := by
  rw [BitVec.toNat_append, ← Nat.shiftLeft_add_eq_or_of_lt v.isLt]
  rfl

private theorem pack_subnormal {b : BitVec Format.binary64.numBits} (hexponent : unpackExponent b = 0)
    (hm : 0 < (unpackMantissa b).toNat) :
    UnpackedFloat.pack .binary64
      (.finite (Sign.ofBitVec (unpackSign b)) (unpackMantissa b).toNat (-1074) hm) = b := by
  have hlog : (unpackMantissa b).toNat.log2 + 1 ≠ Format.binary64.mantissaBits := by
    have hman : (unpackMantissa b).toNat < 2 ^ 52 := (unpackMantissa b).isLt
    have := (Nat.log2_lt hm.ne').2 hman
    show _ ≠ 53
    omega
  have hfits : ¬ 2 ^ Format.binary64.exponentBits ≤ (-1074 + (Format.binary64.exponentBias : ℤ) +
      Format.binary64.mantissaBitsWithoutImplicit).toNat + 1 := by
    decide
  unfold UnpackedFloat.pack
  rw [if_neg hfits, if_neg hlog]
  apply packComponents_of_eq b hexponent
  rw [BitVec.ofNat_toNat, BitVec.setWidth_eq]

private theorem pack_normal {b : BitVec Format.binary64.numBits}
    (hhigh : (unpackExponent b).toNat ≠ 2047) (hm : 0 < (1#1 ++ unpackMantissa b).toNat) :
    UnpackedFloat.pack .binary64 (.finite (Sign.ofBitVec (unpackSign b))
      (1#1 ++ unpackMantissa b).toNat ((unpackExponent b).toNat - 1075) hm) = b := by
  have hexp : (unpackExponent b).toNat < 2 ^ 11 := (unpackExponent b).isLt
  have hman : (unpackMantissa b).toNat < 2 ^ 52 := (unpackMantissa b).isLt
  have hlead := toNat_leading (unpackMantissa b)
  have hlog : (1#1 ++ unpackMantissa b).toNat.log2 + 1 = Format.binary64.mantissaBits := by
    have hbits : (1#1 ++ unpackMantissa b).toNat.log2 = 52 :=
      (Nat.log2_eq_iff hm.ne').2 ⟨by omega, by omega⟩
    rw [hbits]
    rfl
  have hbiased : (((unpackExponent b).toNat : ℤ) - 1075 + Format.binary64.exponentBias +
      Format.binary64.mantissaBitsWithoutImplicit).toNat = (unpackExponent b).toNat := by
    show (((unpackExponent b).toNat : ℤ) - 1075 + (1023 : ℕ) + (52 : ℕ)).toNat = _
    omega
  have hfits : ¬ 2 ^ Format.binary64.exponentBits ≤ (unpackExponent b).toNat + 1 := by
    show ¬ 2 ^ 11 ≤ _
    omega
  unfold UnpackedFloat.pack
  simp only [hbiased]
  rw [if_neg hfits, if_pos hlog]
  apply packComponents_of_eq b
  · rw [BitVec.ofNat_toNat, BitVec.setWidth_eq]
  · apply BitVec.eq_of_toNat_eq
    rw [BitVec.toNat_ofNat, hlead]
    show _ = (2 ^ 52 + _) % 2 ^ 52
    omega

private theorem pack_unpack_of_valid {b : BitVec Format.binary64.numBits}
    (h : Format.binary64.Valid b) :
    UnpackedFloat.pack .binary64 (UnpackedFloat.unpack .binary64 b) = b := by
  have hbias : Format.binary64.exponentBias = 1023 := rfl
  unfold UnpackedFloat.unpack
  simp only [hbias]
  split
  · rename_i hmax
    split
    · rename_i hzero
      exact packComponents_of_eq b hmax hzero
    · rename_i hnonzero
      exact (h.eq_packedNaN hmax hnonzero).symm
  · rename_i hmax
    split
    · rename_i hzero
      split
      · rename_i hmantissa
        exact packComponents_of_eq b hzero hmantissa
      · rename_i hmantissa
        have hexponent : (unpackExponent b).toNat = 0 := congrArg BitVec.toNat hzero
        simp only [hexponent]
        exact pack_subnormal hzero _
    · exact pack_normal (fun h => hmax (BitVec.eq_of_toNat_eq h)) _

theorem pack_unpack (x : Float.Model) : Float.Model.pack x.unpack = x := by
  cases x with
  | mk bits valid =>
    have h := pack_unpack_of_valid valid
    unfold Float.Model.pack Float.Model.unpack
    simp only [h]

theorem eq_of_unpack_eq {x y : Float} (h : x.toModel.unpack = y.toModel.unpack) : x = y := by
  have hmodel : x.toModel = y.toModel := by
    rw [← pack_unpack x.toModel, h, pack_unpack]
  cases x
  cases y
  exact congrArg Float.ofModel hmodel

theorem eq_of_toBits_eq {x y : Float} (h : x.toBits = y.toBits) : x = y := by
  have hunpack : x.toModel.unpack = y.toModel.unpack :=
    congrArg (fun bits : UInt64 => UnpackedFloat.unpack .binary64 bits.toBitVec) h
  exact eq_of_unpack_eq hunpack

def isNegative : Sign → Bool
  | .negative => true
  | .positive => false

/-- What an unpacked float looks like; a zero is a mantissa of zero. -/
def shapeOf : UnpackedFloat → FloatShape
  | .notANumber => .nan
  | .infinity s => .infinite (isNegative s)
  | .zero s => .finite (isNegative s) 0 (-1074)
  | .finite s m e _ => .finite (isNegative s) m e

theorem isNegative_unpackSign (b : BitVec Format.binary64.numBits) :
    isNegative (Sign.ofBitVec (unpackSign b)) = (b.toNat / FloatText.signUnit == 1) := by
  have hb : b.toNat < 2 ^ 64 := b.isLt
  have hsign := toNat_unpackSign b
  unfold Sign.ofBitVec FloatText.signUnit
  by_cases hzero : unpackSign b = 0#1
  · have hnat : (unpackSign b).toNat = 0 := congrArg BitVec.toNat hzero
    rw [if_pos hzero]
    symm
    simp only [isNegative, beq_eq_false_iff_ne]
    omega
  · have hnat : (unpackSign b).toNat ≠ 0 := fun h => hzero (BitVec.eq_of_toNat_eq h)
    rw [if_neg hzero]
    symm
    simp only [isNegative, beq_iff_eq]
    omega

private theorem shapeOfBits_eq (b : BitVec Format.binary64.numBits) :
    FloatText.shapeOfBits b.toNat = shapeOf (UnpackedFloat.unpack .binary64 b) := by
  have hbias : Format.binary64.exponentBias = 1023 := rfl
  have hexponent : b.toNat / FloatText.fractionUnit % 2048 = (unpackExponent b).toNat :=
    (toNat_unpackExponent b).symm
  have hmantissa : b.toNat % FloatText.fractionUnit = (unpackMantissa b).toNat :=
    (toNat_unpackMantissa b).symm
  unfold FloatText.shapeOfBits UnpackedFloat.unpack
  simp only [← isNegative_unpackSign, hbias, hexponent, hmantissa]
  split
  · rename_i hmax
    rw [if_pos (BitVec.eq_of_toNat_eq hmax)]
    split
    · rename_i hzero
      rw [if_pos (BitVec.eq_of_toNat_eq hzero)]
      rfl
    · rename_i hzero
      rw [if_neg fun h => hzero (congrArg BitVec.toNat h)]
      rfl
  · rename_i hmax
    rw [if_neg fun h => hmax (congrArg BitVec.toNat h)]
    split
    · rename_i hmin
      rw [if_pos (BitVec.eq_of_toNat_eq hmin), hmin]
      by_cases hzero : unpackMantissa b = 0#52
      · rw [dif_pos hzero, hzero]
        rfl
      · rw [dif_neg hzero]
        rfl
    · rename_i hmin
      rw [if_neg fun h => hmin (congrArg BitVec.toNat h)]
      simp only [shapeOf, toNat_leading]
      rfl

theorem shape_eq (x : Float) : FloatText.shape x = shapeOf x.toModel.unpack :=
  shapeOfBits_eq x.toBits.toBitVec

end SignalDesk.FloatValue
