import PolicyLevers.Proofs.CorrectReading
import PolicyLevers.Proofs.OrderedNumbers
import PolicyLevers.Proofs.ShortestDigits

/-!
# Whole numbers among the doubles

Positive doubles are compared as the amounts that they stand for.  A whole number with a mantissa of 53 bits is a
double, and so is the whole part of any double.  So comparing the whole part of a double with such a number as
doubles is comparing the two numbers.
-/

namespace PolicyLevers.Decimal

set_option autoImplicit false

open Float.Model (Format UnpackedFloat)
open Float.Model.UnpackedFloat (Sign)

/-! ## Amounts -/

def amount (value : Float) : ℚ :=
  (if isNegative value then -1 else 1) *
    ((Binary.ofFloat value).mantissa * 2 ^ (Binary.ofFloat value).exponent)

structure HasParts (value : Float) (mantissa : Nat) (exponent : Int) : Prop where
  canonical : Canonical mantissa exponent
  packed : value = .ofModel (.pack (.finite .positive mantissa exponent canonical.positive))

theorem lesser_exponent {mantissa other : Nat} {exponent further : Int}
    (parts : Canonical mantissa exponent) (others : Canonical other further) (below : exponent < further) :
    (mantissa : ℚ) * 2 ^ exponent < other * 2 ^ further := by
  have least := parts.least
  have long : (2 : ℚ) ^ 52 ≤ other := by
    rcases others.full with lowest | long
    · omega
    · exact_mod_cast long
  have short : (mantissa : ℚ) < 2 ^ 53 := by exact_mod_cast parts.small
  calc (mantissa : ℚ) * 2 ^ exponent
      < 2 ^ 53 * 2 ^ exponent := mul_lt_mul_of_pos_right short (zpow_pos (by norm_num) _)
    _ = 2 ^ 52 * 2 ^ (exponent + 1) := by
        rw [zpow_add₀ (by norm_num)]
        ring
    _ ≤ other * 2 ^ further := by
        refine mul_le_mul long ?_ (by positivity) (by positivity)
        exact zpow_le_zpow_right₀ (by norm_num) (by omega)

namespace HasParts

variable {value other : Float} {mantissa otherMantissa : Nat} {exponent otherExponent : Int}

theorem unpack (parts : HasParts value mantissa exponent) :
    value.toModel.unpack = .finite .positive mantissa exponent parts.canonical.positive := by
  obtain ⟨canonical, rfl⟩ := parts
  exact unpack_pack canonical .positive canonical.positive

theorem number (parts : HasParts value mantissa exponent) : value.isNaN = false := by
  change value.toModel.unpack.isNaN = false
  rw [parts.unpack]
  rfl

theorem finite (parts : HasParts value mantissa exponent) : value.isFinite = true := by
  obtain ⟨canonical, rfl⟩ := parts
  exact canonical_is_finite canonical .positive canonical.positive

theorem nonnegative (parts : HasParts value mantissa exponent) : isNegative value = false := by
  obtain ⟨canonical, rfl⟩ := parts
  exact (canonical.packed .positive canonical.positive).1

theorem binary (parts : HasParts value mantissa exponent) :
    Binary.ofFloat value = .ofParts mantissa exponent := by
  obtain ⟨canonical, rfl⟩ := parts
  exact (canonical.packed .positive canonical.positive).2

theorem amount (parts : HasParts value mantissa exponent) :
    amount value = mantissa * 2 ^ exponent := by
  rw [Decimal.amount, parts.nonnegative, parts.binary]
  exact one_mul _

theorem at_most_iff (parts : HasParts value mantissa exponent)
    (others : HasParts other otherMantissa otherExponent) :
    value ≤ other ↔ Decimal.amount value ≤ Decimal.amount other := by
  rw [Decimal.at_most_iff, parts.unpack, others.unpack, parts.amount, others.amount]
  simp only [parts.number, others.number, true_and, rank]
  rw [Prod.Lex.toLex_le_toLex, Prod.Lex.toLex_le_toLex]
  dsimp only
  rcases lt_trichotomy exponent otherExponent with below | rfl | above
  · have less := lesser_exponent parts.canonical others.canonical below
    simp [below, less.le]
  · have power : (0 : ℚ) < 2 ^ exponent := zpow_pos (by norm_num) _
    simp [power]
  · have less := lesser_exponent others.canonical parts.canonical above
    simp [above.not_gt, above.ne', less]

end HasParts

/-! ## Whole parts -/

def WholePart (value : Float) (whole : Nat) : Prop :=
  value.isFinite = true ∧ whole ≤ amount value ∧ amount value < whole + 1

/-- The number is a double: a mantissa with zeros behind it. -/
def Representable (number : Nat) : Prop :=
  ∃ mantissa zeros, mantissa < 2 ^ 53 ∧ zeros ≤ 971 ∧ number = mantissa * 2 ^ zeros

theorem whole_bounds (parts : Binary) :
    parts.whole ≤ (parts.mantissa : ℚ) * 2 ^ parts.exponent ∧
      (parts.mantissa : ℚ) * 2 ^ parts.exponent < parts.whole + 1 := by
  obtain ⟨mantissa, exponent, narrow⟩ := parts
  unfold Binary.whole
  dsimp only
  split
  · rename_i below
    obtain ⟨places, rfl⟩ : ∃ places : Nat, exponent = -places := ⟨exponent.natAbs, by omega⟩
    rw [show (-(places : Int)).natAbs = places by omega, zpow_neg, zpow_natCast, ← div_eq_mul_inv]
    have power : (0 : ℚ) < 2 ^ places := by positivity
    constructor
    · rw [le_div_iff₀ power]
      exact_mod_cast Nat.div_mul_le_self mantissa (2 ^ places)
    · rw [div_lt_iff₀ power]
      exact_mod_cast Nat.lt_mul_of_div_lt (Nat.lt_succ_self _) (Nat.two_pow_pos places)
  · rename_i above
    obtain ⟨zeros, rfl⟩ : ∃ zeros : Nat, exponent = zeros := ⟨exponent.natAbs, by omega⟩
    rw [Int.natAbs_natCast, zpow_natCast]
    have same : ((mantissa * Nat.pow 2 zeros : Nat) : ℚ) = mantissa * 2 ^ zeros := by
      exact_mod_cast rfl
    rw [same]
    exact ⟨le_refl _, lt_add_one _⟩

/-- What is cut off is less than one and lies away from zero. -/
theorem truncate_toward_zero (value : Float) :
    |(truncate value : ℚ)| ≤ |amount value| ∧ |amount value - truncate value| < 1 := by
  obtain ⟨low, high⟩ := whole_bounds (.ofFloat value)
  have nonnegative : (0 : ℚ) ≤ (Binary.ofFloat value).whole := Nat.cast_nonneg _
  unfold truncate amount
  cases isNegative value with
  | false =>
      simp only [Bool.false_eq_true, if_false, one_mul, Int.cast_natCast]
      rw [abs_of_nonneg nonnegative, abs_of_nonneg (nonnegative.trans low), abs_lt]
      exact ⟨low, by linarith, by linarith⟩
  | true =>
      simp only [if_true, neg_one_mul, Int.cast_neg, Int.cast_natCast, abs_neg]
      rw [abs_of_nonneg nonnegative, abs_of_nonneg (nonnegative.trans low), abs_lt]
      exact ⟨low, by linarith, by linarith⟩

theorem finite_not_special {value : Float} (finite : value.isFinite = true) :
    value.isNaN = false ∧ value.isInf = false := by
  change value.toModel.unpack.isNaN = false ∧ value.toModel.unpack.isInf = false
  rcases finite_parts finite with ⟨sign, parts⟩ | ⟨sign, mantissa, exponent, positive, _, parts⟩ <;>
    rw [parts] <;> exact ⟨rfl, rfl⟩

theorem truncate_int32_of_small {value : Float} (finite : value.isFinite = true)
    (small : |amount value| < 2 ^ 31) : truncateInt32 value = truncate value := by
  obtain ⟨number, bounded⟩ := finite_not_special finite
  have within := (truncate_toward_zero value).1.trans_lt small
  rw [abs_lt] at within
  have above : -(2 ^ 31 : Int) < truncate value := by exact_mod_cast within.1
  have below : truncate value < (2 ^ 31 : Int) := by exact_mod_cast within.2
  simp only [truncateInt32, number, bounded, Bool.false_eq_true, if_false]
  omega

theorem Canonical.whole_representable {mantissa : Nat} {exponent : Int}
    (parts : Canonical mantissa exponent) : Representable (Binary.ofParts mantissa exponent).whole := by
  have small := parts.small
  have most := parts.most
  unfold Binary.whole Binary.ofParts
  dsimp only
  split
  · exact ⟨_, 0, Nat.lt_of_le_of_lt (Nat.div_le_self _ _) small, by omega, (Nat.mul_one _).symm⟩
  · exact ⟨mantissa, exponent.natAbs, small, by omega, rfl⟩

theorem RoundsTo.of_nat {number mantissa : Nat} {exponent : Int} (near : RoundsTo number mantissa exponent)
    (parts : Canonical mantissa exponent) (positive : 0 < number) :
    Float.ofNat number = .ofModel (.pack (.finite .positive mantissa exponent parts.positive)) := by
  have noPower : (if false then Int.negOfNat 0 else Int.ofNat 0) = 0 := rfl
  exact near.of_scientific parts parts.positive positive noPower (by simp) (by decide) (by omega)

theorem Representable.parts {number : Nat} (fits : Representable number) (positive : 0 < number) :
    ∃ mantissa exponent, HasParts (Float.ofNat number) mantissa exponent ∧
      amount (Float.ofNat number) = number := by
  obtain ⟨mantissa, zeros, short, few, rfl⟩ := fits
  have visible : 0 < mantissa := Nat.pos_of_mul_pos_right positive
  have canonical := filled_canonical visible short (by omega : (-1022 : Int) ≤ (zeros : Int)) (by omega)
  have value : ((mantissa * 2 ^ zeros : Nat) : ℚ) = (mantissa * 2 ^ headroom mantissa : Nat) *
      2 ^ ((zeros : Int) - headroom mantissa) := by
    rw [filled_value, zpow_natCast]
    push_cast
    rfl
  have near := rounds_to_itself (mantissa * 2 ^ headroom mantissa) (zeros - headroom mantissa)
  rw [← value] at near
  have parts : HasParts (Float.ofNat (mantissa * 2 ^ zeros)) (mantissa * 2 ^ headroom mantissa)
    (zeros - headroom mantissa) := ⟨canonical, near.of_nat canonical positive⟩
  exact ⟨_, _, parts, parts.amount.trans value.symm⟩

namespace HasParts

variable {value : Float} {mantissa : Nat} {exponent : Int}

theorem whole_part_iff (parts : HasParts value mantissa exponent) {whole : Nat} :
    WholePart value whole ↔ (Binary.ofParts mantissa exponent).whole = whole := by
  obtain ⟨low, high⟩ := whole_bounds (.ofParts mantissa exponent)
  change _ ≤ (mantissa : ℚ) * 2 ^ exponent at low
  change (mantissa : ℚ) * 2 ^ exponent < _ at high
  rw [← parts.amount] at low high
  constructor
  · rintro ⟨_, least, most⟩
    have above : (Binary.ofParts mantissa exponent).whole < whole + 1 := by
      exact_mod_cast low.trans_lt most
    have below : whole < (Binary.ofParts mantissa exponent).whole + 1 := by
      exact_mod_cast least.trans_lt high
    omega
  · rintro rfl
    exact ⟨parts.finite, low, high⟩

theorem truncate (parts : HasParts value mantissa exponent) :
    truncate value = (Binary.ofParts mantissa exponent).whole := by
  unfold Decimal.truncate
  rw [parts.nonnegative, parts.binary]
  rfl

/-- As doubles the whole part and a limit compare as the numbers that they are. -/
theorem whole_at_most_iff (parts : HasParts value mantissa exponent) {limit : Nat}
    (fits : Representable limit) (visible : 0 < (Binary.ofParts mantissa exponent).whole) :
    ofInt (Decimal.truncate value) ≤ Float.ofNat limit ↔
      (Binary.ofParts mantissa exponent).whole ≤ limit := by
  rw [parts.truncate]
  change Float.ofNat (Binary.ofParts mantissa exponent).whole ≤ _ ↔ _
  obtain ⟨_, _, wholeParts, wholeAmount⟩ := parts.canonical.whole_representable.parts visible
  rcases Nat.eq_zero_or_pos limit with rfl | positive
  · have zero : (Float.ofNat 0).toModel.unpack = .zero .positive := rfl
    rw [Decimal.at_most_iff, wholeParts.unpack, zero]
    -- a limit of zero is below every whole part that counts
    refine iff_of_false (fun ordered => ?_) (by omega)
    exact absurd ordered.2.2 (by simp [rank, Prod.Lex.toLex_le_toLex])
  · obtain ⟨_, _, limitParts, limitAmount⟩ := fits.parts positive
    rw [wholeParts.at_most_iff limitParts, wholeAmount, limitAmount, Nat.cast_le]

end HasParts

theorem infinite_not_finite {value : Float} (infinite : value.isInf = true) : value.isFinite = false := by
  rw [Bool.eq_false_iff]
  intro finite
  rw [(finite_not_special finite).2] at infinite
  cases infinite

theorem one_has_parts : HasParts 1.0 (2 ^ 52) (-52) :=
  ⟨⟨by decide, by decide, by decide, by decide, by decide⟩, rfl⟩

theorem at_least_one {value : Float} (enough : 1.0 ≤ value) :
    value.isInf = true ∨ ∃ mantissa exponent, HasParts value mantissa exponent ∧ 1 ≤ amount value := by
  obtain ⟨_, number, above⟩ := at_most_iff.mp enough
  rw [one_parts] at above
  cases finite : value.isFinite with
  | true =>
      rcases finite_cases finite with ⟨sign, rfl⟩ | ⟨sign, mantissa, exponent, positive, parts, rfl⟩
      · change rank _ ≤ rank (Float.Model.pack (.zero sign)).unpack at above
        rw [unpack_zero] at above
        simp [rank, Prod.Lex.toLex_le_toLex] at above
      · cases sign with
        | negative =>
            change rank _ ≤ rank (Float.Model.pack (.finite .negative mantissa exponent positive)).unpack
              at above
            rw [unpack_pack parts] at above
            simp [rank, Prod.Lex.toLex_le_toLex] at above
        | positive =>
            have valueParts : HasParts (.ofModel (.pack (.finite .positive mantissa exponent positive)))
              mantissa exponent := ⟨parts, rfl⟩
            refine .inr ⟨mantissa, exponent, valueParts, ?_⟩
            have least := (one_has_parts.at_most_iff valueParts).mp enough
            rw [one_has_parts.amount] at least
            norm_num at least
            exact least
  | false =>
      left
      rcases infinite_cases finite with rfl | ⟨sign, rfl⟩
      · cases number
      · cases sign <;> rfl

end PolicyLevers.Decimal
