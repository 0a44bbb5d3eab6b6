import Mathlib
import PolicyLevers.Decimal.Reading

/-!
# Doubles from their parts

A finite double other than zero is a sign, a mantissa and an exponent, and these parts are unique: the
mantissa fills its 53 bits unless the exponent is the least one.  Packing the parts into bits and
unpacking them loses nothing, and rounding leaves a number with such parts as it is.  What an operation
makes of two doubles is told by their parts.
-/

namespace PolicyLevers.Decimal

set_option autoImplicit false

open Float.Model (Format UnpackedFloat totalExponent)
open Float.Model.UnpackedFloat (Sign)

/-- The mantissa and exponent of a finite double other than zero. -/
structure Canonical (mantissa : Nat) (exponent : Int) : Prop where
  positive : 0 < mantissa
  small : mantissa < 2 ^ 53
  least : -1074 ≤ exponent
  most : exponent ≤ 971
  full : exponent = -1074 ∨ 2 ^ 52 ≤ mantissa

theorem exponent_bias : Format.binary64.exponentBias = 1023 := rfl

theorem mantissa_bits : Format.binary64.mantissaBits = 53 := rfl

theorem target_exponent (total : Int) :
    Format.binary64.targetExponent total = max (total - 53) (-1074) := by
  rfl

theorem Canonical.log_full {mantissa : Nat} {exponent : Int} (parts : Canonical mantissa exponent)
    (long : 2 ^ 52 ≤ mantissa) : mantissa.log2 = 52 := by
  have nonzero := (Nat.ne_of_gt parts.positive)
  have below := (Nat.log2_lt nonzero).mpr parts.small
  have above := (Nat.le_log2 nonzero).mpr long
  omega

theorem Canonical.target {mantissa : Nat} {exponent : Int} (parts : Canonical mantissa exponent) :
    Format.binary64.targetExponent (totalExponent mantissa exponent) = exponent := by
  have below := (Nat.log2_lt (Nat.ne_of_gt parts.positive)).mpr parts.small
  have least := parts.least
  rw [target_exponent]
  unfold totalExponent
  rcases parts.full with lowest | long
  · omega
  · have full := parts.log_full long
    omega

/-! ## Bits -/

theorem sign_bit (bit : BitVec 1) : (Sign.ofBitVec bit).toBitVec = bit := by
  revert bit
  decide

theorem sign_of_bit (sign : Sign) : Sign.ofBitVec sign.toBitVec = sign := by
  cases sign <;> rfl

theorem leading_one (fraction : BitVec 52) : (1#1 ++ fraction).toNat = 2 ^ 52 + fraction.toNat := by
  rw [BitVec.toNat_append, ← Nat.shiftLeft_add_eq_or_of_lt fraction.isLt]
  rfl

theorem bits_append (bits : BitVec 64) :
    (bits.extractLsb' 63 1 ++ bits.extractLsb' 52 11 ++ bits.extractLsb' 0 52 : BitVec 64) = bits := by
  ext i inside
  simp only [BitVec.getElem_append, BitVec.getElem_extractLsb']
  split
  · simp [BitVec.getLsbD_eq_getElem inside]
  · split
    · rw [← BitVec.getLsbD_eq_getElem]
      congr 1
      omega
    · rw [← BitVec.getLsbD_eq_getElem]
      congr 1
      omega

/-- Every pattern of bits is a sign, an exponent and a fraction. -/
theorem bits_cases (bits : BitVec 64) : ∃ (sign : Sign) (exponent : BitVec 11) (fraction : BitVec 52),
    bits = UnpackedFloat.packComponents Format.binary64 sign exponent fraction := by
  refine ⟨Sign.ofBitVec (bits.extractLsb' 63 1), bits.extractLsb' 52 11, bits.extractLsb' 0 52, ?_⟩
  unfold UnpackedFloat.packComponents
  rw [sign_bit]
  exact (bits_append bits).symm

theorem unpack_sign (sign : Sign) (exponent : BitVec 11) (fraction : BitVec 52) :
    UnpackedFloat.unpackSign (UnpackedFloat.packComponents Format.binary64 sign exponent fraction) =
      sign.toBitVec := by
  have high : (sign.toBitVec ++ exponent ++ fraction).extractLsb' 63 1 = sign.toBitVec := by
    ext i inside
    rw [BitVec.getElem_extractLsb', BitVec.getLsbD_append, BitVec.getLsbD_append]
    have lowest : i = 0 := by omega
    subst lowest
    simp [BitVec.getLsbD_eq_getElem]
  exact high

section Fields

variable (sign : Sign) {exponent : BitVec 11} {fraction : BitVec 52}

theorem unpack_normal (below : exponent ≠ 0#11) (above : exponent ≠ -1#11) (fraction : BitVec 52)
    (positive : 0 < 2 ^ 52 + fraction.toNat) :
    UnpackedFloat.unpack Format.binary64
        (UnpackedFloat.packComponents Format.binary64 sign exponent fraction) =
      .finite sign (2 ^ 52 + fraction.toNat) (exponent.toNat - 1075) positive := by
  unfold UnpackedFloat.unpack
  simp only [UnpackedFloat.unpackExponent_packComponents, unpack_sign, sign_of_bit,
    UnpackedFloat.unpackMantissa_packComponents, below, above, if_false, leading_one]
  rfl

theorem unpack_subnormal (visible : fraction ≠ 0#52) (positive : 0 < fraction.toNat) :
    UnpackedFloat.unpack Format.binary64
        (UnpackedFloat.packComponents Format.binary64 sign 0#11 fraction) =
      .finite sign fraction.toNat (-1074) positive := by
  unfold UnpackedFloat.unpack
  simp only [UnpackedFloat.unpackExponent_packComponents, unpack_sign, sign_of_bit,
    UnpackedFloat.unpackMantissa_packComponents, visible]
  rfl

theorem pack_normal (above : exponent ≠ -1#11) (fraction : BitVec 52)
    (positive : 0 < 2 ^ 52 + fraction.toNat) :
    UnpackedFloat.pack Format.binary64
        (.finite sign (2 ^ 52 + fraction.toNat) (exponent.toNat - 1075) positive) =
      UnpackedFloat.packComponents Format.binary64 sign exponent fraction := by
  have inside : exponent.toNat ≠ 2047 := fun top => above (BitVec.eq_of_toNat_eq top)
  have bound := exponent.isLt
  have biased : ((exponent.toNat : Int) - 1075 + (1023 : Nat) + (52 : Nat)).toNat = exponent.toNat := by
    omega
  have log : (2 ^ 52 + fraction.toNat).log2 = 52 := by
    have small := fraction.isLt
    exact (Nat.log2_eq_iff (by omega)).mpr ⟨by omega, by omega⟩
  have short : BitVec.ofNat 52 (2 ^ 52 + fraction.toNat) = fraction := by
    apply BitVec.eq_of_toNat_eq
    rw [BitVec.toNat_ofNat, Nat.add_mod_left, Nat.mod_eq_of_lt fraction.isLt]
  unfold UnpackedFloat.pack
  dsimp only
  rw [exponent_bias, biased, if_neg (by omega), if_pos (by rw [log]; rfl), short, BitVec.ofNat_toNat,
    BitVec.setWidth_eq]

theorem pack_subnormal (positive : 0 < fraction.toNat) :
    UnpackedFloat.pack Format.binary64 (.finite sign fraction.toNat (-1074) positive) =
      UnpackedFloat.packComponents Format.binary64 sign 0#11 fraction := by
  have log := (Nat.log2_lt (Nat.ne_of_gt positive)).mpr fraction.isLt
  unfold UnpackedFloat.pack
  dsimp only
  rw [exponent_bias, if_neg (by decide), if_neg (by rw [mantissa_bits]; omega), BitVec.ofNat_toNat,
    BitVec.setWidth_eq]

end Fields

theorem Canonical.fields {mantissa : Nat} {exponent : Int} (parts : Canonical mantissa exponent) :
    (∃ (biased : BitVec 11) (fraction : BitVec 52), biased ≠ 0#11 ∧ biased ≠ -1#11 ∧
      mantissa = 2 ^ 52 + fraction.toNat ∧ exponent = biased.toNat - 1075) ∨
    ∃ fraction : BitVec 52, 0 < fraction.toNat ∧ mantissa = fraction.toNat ∧ exponent = -1074 := by
  have positive := parts.positive
  have small := parts.small
  have least := parts.least
  have most := parts.most
  by_cases long : 2 ^ 52 ≤ mantissa
  · have biased : (BitVec.ofNat 11 (exponent + 1075).toNat).toNat = (exponent + 1075).toNat := by
      rw [BitVec.toNat_ofNat, Nat.mod_eq_of_lt (by omega)]
    have fraction : (BitVec.ofNat 52 (mantissa - 2 ^ 52)).toNat = mantissa - 2 ^ 52 := by
      rw [BitVec.toNat_ofNat, Nat.mod_eq_of_lt (by omega)]
    refine .inl ⟨BitVec.ofNat 11 (exponent + 1075).toNat, BitVec.ofNat 52 (mantissa - 2 ^ 52),
      ?_, ?_, ?_, ?_⟩
    · intro same
      have zero := congrArg BitVec.toNat same
      rw [biased] at zero
      change _ = 0 at zero
      omega
    · intro same
      have top := congrArg BitVec.toNat same
      rw [biased] at top
      change _ = 2047 at top
      omega
    · omega
    · omega
  · have fraction : (BitVec.ofNat 52 mantissa).toNat = mantissa := by
      rw [BitVec.toNat_ofNat, Nat.mod_eq_of_lt (by omega)]
    have lowest := parts.full
    exact .inr ⟨BitVec.ofNat 52 mantissa, by omega, by omega, by omega⟩

theorem unpack_pack {mantissa : Nat} {exponent : Int} (parts : Canonical mantissa exponent)
    (sign : Sign) (positive : 0 < mantissa) :
    (Float.Model.pack (.finite sign mantissa exponent positive)).unpack =
      .finite sign mantissa exponent positive := by
  rcases parts.fields with ⟨biased, fraction, below, above, rfl, rfl⟩ | ⟨fraction, visible, rfl, rfl⟩
  · unfold Float.Model.unpack Float.Model.pack
    rw [UInt64.toBitVec_ofBitVec, pack_normal sign above, unpack_normal sign below above]
  · unfold Float.Model.unpack Float.Model.pack
    have nonzero : fraction ≠ 0#52 := by
      rintro rfl
      exact absurd visible (by decide)
    rw [UInt64.toBitVec_ofBitVec, pack_subnormal, unpack_subnormal sign nonzero]

theorem eq_pack {value : Float} {parts : UnpackedFloat}
    (same : value.toModel.toBits.toBitVec = UnpackedFloat.pack Format.binary64 parts) :
    value = .ofModel (.pack parts) := by
  obtain ⟨⟨⟨bits⟩, valid⟩⟩ := value
  subst same
  rfl

/-- A double that is a number is a zero or has canonical parts. -/
theorem finite_cases {value : Float} (finite : value.isFinite = true) :
    (∃ sign, value = .ofModel (.pack (.zero sign))) ∨
      ∃ sign mantissa exponent positive, Canonical mantissa exponent ∧
        value = .ofModel (.pack (.finite sign mantissa exponent positive)) := by
  obtain ⟨sign, exponent, fraction, bits⟩ := bits_cases value.toModel.toBits.toBitVec
  have bound := exponent.isLt
  have small := fraction.isLt
  by_cases above : exponent = -1#11
  · have number : (UnpackedFloat.unpack Format.binary64 value.toModel.toBits.toBitVec).isFinite :=
      finite
    rw [bits, above] at number
    unfold UnpackedFloat.unpack at number
    simp only [UnpackedFloat.unpackExponent_packComponents, if_true] at number
    split at number <;> cases number
  · by_cases below : exponent = 0#11
    · subst below
      by_cases empty : fraction = 0#52
      · subst empty
        exact .inl ⟨sign, eq_pack bits⟩
      · have positive : 0 < fraction.toNat :=
          Nat.pos_of_ne_zero (fun zero => empty (BitVec.eq_of_toNat_eq zero))
        refine .inr ⟨sign, fraction.toNat, -1074, positive, ?_, eq_pack ?_⟩
        · exact ⟨positive, by omega, by omega, by omega, .inl rfl⟩
        · rw [bits, pack_subnormal]
    · have nonzero : exponent.toNat ≠ 0 := fun zero => below (BitVec.eq_of_toNat_eq zero)
      have inside : exponent.toNat ≠ 2047 := fun top => above (BitVec.eq_of_toNat_eq top)
      have positive : 0 < 2 ^ 52 + fraction.toNat := by omega
      refine .inr ⟨sign, 2 ^ 52 + fraction.toNat, exponent.toNat - 1075, positive, ?_, eq_pack ?_⟩
      · exact ⟨positive, by omega, by omega, by omega, .inr (by omega)⟩
      · rw [bits, pack_normal sign above]

/-! ## Rounding -/

theorem shift_exact (mantissa amount : Nat) :
    UnpackedFloat.ExtendedMantissa.mk (mantissa * 2 ^ amount) false false >>> amount =
      UnpackedFloat.ExtendedMantissa.mk mantissa false false := by
  induction amount generalizing mantissa with
  | zero => rw [Nat.pow_zero, Nat.mul_one]; rfl
  | succ amount induction =>
      have shifted := induction (mantissa * 2)
      rw [Nat.mul_assoc, ← Nat.pow_succ'] at shifted
      change UnpackedFloat.ExtendedMantissa.shiftRightOne
        (UnpackedFloat.ExtendedMantissa.mk (mantissa * 2 ^ (amount + 1)) false false >>> amount) = _
      rw [shifted]
      simp [UnpackedFloat.ExtendedMantissa.shiftRightOne]

theorem log_shifted {mantissa : Nat} (positive : 0 < mantissa) (amount : Nat) :
    (mantissa * 2 ^ amount).log2 = mantissa.log2 + amount := by
  have nonzero := Nat.ne_of_gt positive
  have power := Nat.two_pow_pos amount
  refine (Nat.log2_eq_iff (Nat.ne_of_gt (Nat.mul_pos positive power))).mpr ⟨?_, ?_⟩
  · rw [Nat.pow_add]
    exact Nat.mul_le_mul_right _ (Nat.log2_self_le nonzero)
  · rw [Nat.add_right_comm, Nat.pow_add]
    exact Nat.mul_lt_mul_of_pos_right Nat.lt_log2_self power

/-- Rounding only brings an exact number to its canonical exponent. -/
theorem round_exact {mantissa : Nat} {exponent : Int} (parts : Canonical mantissa exponent)
    (sign : Sign) (amount : Nat) (positive : 0 < mantissa) :
    UnpackedFloat.roundWithAccuracy Format.binary64 sign (mantissa * 2 ^ amount) (exponent - amount)
      .exact = .finite sign mantissa exponent positive := by
  have shifted (amount : Nat) : UnpackedFloat.shiftToTargetExponent Format.binary64
      (mantissa * 2 ^ amount) (exponent - amount) .exact = (⟨mantissa, false, false⟩, exponent) := by
    have total : totalExponent (mantissa * 2 ^ amount) (exponent - amount) =
        totalExponent mantissa exponent := by
      unfold totalExponent
      rw [log_shifted positive]
      omega
    have distance : (exponent - (exponent - amount)).toNat = amount := by omega
    unfold UnpackedFloat.shiftToTargetExponent UnpackedFloat.shiftToExponent
    rw [total, parts.target]
    dsimp only
    rw [distance]
    apply Prod.ext
    · exact shift_exact mantissa amount
    · dsimp only
      omega
  -- the mantissa is short enough already, so the second shift moves nothing
  have again := shifted 0
  rw [Nat.pow_zero, Nat.mul_one, Int.natCast_zero, Int.sub_zero] at again
  have rounded : (UnpackedFloat.ExtendedMantissa.mk mantissa false false).roundedMantissa = mantissa :=
    rfl
  unfold UnpackedFloat.roundWithAccuracy
  simp only [shifted amount, rounded, again]
  exact dif_neg (Nat.ne_of_gt positive)

/-! ## Operations -/

section Operations

variable (left right : Float)

theorem sum_of_parts : left + right = .ofModel (.pack (UnpackedFloat.add Format.binary64
    left.toModel.unpack right.toModel.unpack)) := rfl

theorem difference_of_parts : left - right = .ofModel (.pack (UnpackedFloat.sub Format.binary64
    left.toModel.unpack right.toModel.unpack)) := rfl

theorem product_of_parts : left * right = .ofModel (.pack (UnpackedFloat.mul Format.binary64
    left.toModel.unpack right.toModel.unpack)) := rfl

theorem quotient_of_parts : left / right = .ofModel (.pack (UnpackedFloat.div Format.binary64
    left.toModel.unpack right.toModel.unpack)) := rfl

end Operations

end PolicyLevers.Decimal
