import PolicyLevers.Proofs.CorrectRounding

/-!
# Decimals are read correctly

The nearest double of a decimal is computed by one product or quotient of exact parts, and the result of
either is rounded once.  So a decimal is read as the double that it rounds to, small decimals that are
computed with precomputed powers of ten included.
-/

namespace PolicyLevers.Decimal

set_option autoImplicit false

open Float.Model (Format UnpackedFloat totalExponent)
open Float.Model.UnpackedFloat (Sign Accuracy ExtendedMantissa)

variable {point : ℚ} {mantissa : Nat} {exponent : Int}

/-! ## Products and quotients -/

theorem RoundsTo.product (near : RoundsTo point mantissa exponent) (parts : Canonical mantissa exponent)
    (positive : 0 < mantissa) {left right : Nat} {base further : Int} (leftPositive : 0 < left)
    (rightPositive : 0 < right) (value : point = left * 2 ^ base * (right * 2 ^ further))
    (least : -1074 ≤ base + further) (full : 2 ^ 52 ≤ left * right) :
    UnpackedFloat.mul Format.binary64 (.finite .positive left base leftPositive)
        (.finite .positive right further rightPositive) =
      .finite .positive mantissa exponent positive := by
  have placed : Extends (point / 2 ^ (base + further)) (.ofMantissaAndAccuracy (left * right) .exact) := by
    change point / 2 ^ (base + further) = ((left * right : Nat) : ℚ)
    rw [value, div_eq_iff (zpow_ne_zero _ (by decide)), zpow_add₀ (by decide)]
    push_cast
    ring
  exact near.round_accuracy parts .positive placed least (.inr full) positive

/-- The accuracy of a remainder says where the quotient lies. -/
theorem extends_quotient (dividend : Nat) {divisor : Nat} (positive : 0 < divisor) :
    Extends ((dividend : ℚ) / divisor) (.ofMantissaAndAccuracy (dividend / divisor)
      (UnpackedFloat.accuracyOfFraction (dividend % divisor) divisor)) := by
  have visible : (0 : ℚ) < divisor := by exact_mod_cast positive
  have split : (dividend : ℚ) =
      divisor * (dividend / divisor : Nat) + (dividend % divisor : Nat) := by
    exact_mod_cast (Nat.div_add_mod dividend divisor).symm
  have below : ((dividend % divisor : Nat) : ℚ) < divisor := by
    exact_mod_cast Nat.mod_lt dividend positive
  generalize dividend / divisor = whole at *
  generalize dividend % divisor = rest at *
  have quotient : (dividend : ℚ) / divisor = whole + rest / divisor := by
    rw [split, add_div, mul_div_cancel_left₀ _ (ne_of_gt visible)]
  rw [quotient]
  unfold UnpackedFloat.accuracyOfFraction
  split
  · rename_i divides
    subst divides
    simp [ExtendedMantissa.ofMantissaAndAccuracy, Extends]
  · rename_i remains
    have more : (0 : ℚ) < rest := by exact_mod_cast Nat.pos_of_ne_zero remains
    have fraction := div_pos more visible
    cases order : compare (2 * rest) divisor with
    | lt =>
        have half : ((2 * rest : Nat) : ℚ) < divisor := by exact_mod_cast Nat.compare_eq_lt.mp order
        push_cast at half
        have under : (rest : ℚ) / divisor < 1 / 2 := by
          rw [div_lt_div_iff₀ visible (by norm_num)]
          linarith
        exact ⟨by linarith, by linarith⟩
    | eq =>
        have half : ((2 * rest : Nat) : ℚ) = divisor := by exact_mod_cast Nat.compare_eq_eq.mp order
        push_cast at half
        have same : (rest : ℚ) / divisor = 1 / 2 := by
          rw [div_eq_div_iff (ne_of_gt visible) (by norm_num)]
          linarith
        exact congrArg _ same
    | gt =>
        have half : (divisor : ℚ) < ((2 * rest : Nat) : ℚ) := by
          exact_mod_cast Nat.compare_eq_gt.mp order
        push_cast at half
        have beyond : 1 / 2 < (rest : ℚ) / divisor := by
          rw [div_lt_div_iff₀ (by norm_num) visible]
          linarith
        have proper : (rest : ℚ) / divisor < 1 := (div_lt_one visible).mpr below
        exact ⟨by linarith, by linarith⟩

/-- A quotient is computed with enough bits to fill a mantissa. -/
theorem quotient_full {left right : Nat} (leftPositive : 0 < left) (rightPositive : 0 < right)
    {amount : Nat} (enough : (right.log2 : Int) + 53 ≤ left.log2 + amount) :
    2 ^ 52 ≤ left * 2 ^ amount / right := by
  rw [Nat.le_div_iff_mul_le rightPositive]
  calc 2 ^ 52 * right
      ≤ 2 ^ 52 * 2 ^ (right.log2 + 1) := Nat.mul_le_mul_left _ (Nat.le_of_lt Nat.lt_log2_self)
    _ = 2 ^ (right.log2 + 53) := by rw [← Nat.pow_add]; congr 1; omega
    _ ≤ 2 ^ (left.log2 + amount) := Nat.pow_le_pow_right (by decide) (by omega)
    _ = 2 ^ left.log2 * 2 ^ amount := Nat.pow_add _ _ _
    _ ≤ left * 2 ^ amount := Nat.mul_le_mul_right _ (Nat.log2_self_le (Nat.ne_of_gt leftPositive))

theorem RoundsTo.quotient (near : RoundsTo point mantissa exponent)
    (parts : Canonical mantissa exponent) (positive : 0 < mantissa) {left right : Nat}
    {base further : Int} (leftPositive : 0 < left) (rightPositive : 0 < right)
    (value : point = left * 2 ^ base / (right * 2 ^ further)) (least : -1074 ≤ base - further) :
    UnpackedFloat.div Format.binary64 (.finite .positive left base leftPositive)
        (.finite .positive right further rightPositive) =
      .finite .positive mantissa exponent positive := by
  unfold UnpackedFloat.div UnpackedFloat.divCore
  simp only [target_exponent, totalExponent]
  generalize bottom : min (base - further) _ = lowest
  obtain ⟨amount, apart⟩ : ∃ amount : Nat, base - further = lowest + amount :=
    ⟨(base - further - lowest).toNat, by omega⟩
  rw [show (base - further - lowest).toNat = amount by omega, Nat.shiftLeft_eq]
  have scaled : point / 2 ^ lowest = ((left * 2 ^ amount : Nat) : ℚ) / right := by
    rw [rescaled point apart, value, zpow_sub₀ (by decide)]
    have power : (2 : ℚ) ^ base ≠ 0 := zpow_ne_zero _ (by decide)
    have other : (2 : ℚ) ^ further ≠ 0 := zpow_ne_zero _ (by decide)
    have visible : (right : ℚ) ≠ 0 := by exact_mod_cast Nat.ne_of_gt rightPositive
    push_cast
    field_simp
  refine near.round_accuracy parts .positive ?_ (by omega) ?_ positive
  · rw [scaled]
    exact extends_quotient _ rightPositive
  · by_cases deepest : lowest = -1074
    · exact .inl deepest
    · exact .inr (quotient_full leftPositive rightPositive (by omega))

/-! ## Small decimals -/

def headroom (number : Nat) : Nat := 52 - number.log2

theorem filled_canonical {number : Nat} {base : Int} (positive : 0 < number) (short : number < 2 ^ 53)
    (least : -1022 ≤ base) (most : base ≤ 971) :
    Canonical (number * 2 ^ headroom number) (base - headroom number) := by
  have nonzero := Nat.ne_of_gt positive
  have log : number.log2 < 53 := (Nat.log2_lt nonzero).mpr short
  have grown : 0 < number * 2 ^ headroom number := Nat.mul_pos positive (Nat.two_pow_pos _)
  have shifted := log_shifted positive (headroom number)
  have room : number.log2 + headroom number = 52 := by unfold headroom; omega
  refine ⟨grown, ?_, ?_, ?_, .inr ?_⟩
  · exact (Nat.log2_lt (Nat.ne_of_gt grown)).mp (by omega)
  · unfold headroom
    omega
  · omega
  · exact (Nat.le_log2 (Nat.ne_of_gt grown)).mp (by omega)

theorem filled_positive {number : Nat} (positive : 0 < number) : 0 < number * 2 ^ headroom number :=
  Nat.mul_pos positive (Nat.two_pow_pos _)

theorem whole_parts {number : Nat} (positive : 0 < number) (short : number < 2 ^ 53) :
    number.toUInt64.toFloat = .ofModel (.pack (.finite .positive (number * 2 ^ headroom number)
      (0 - headroom number) (filled_positive positive))) := by
  have same : number.toUInt64.toNat = number := by
    rw [Nat.toUInt64, UInt64.toNat_ofNat']
    exact Nat.mod_eq_of_lt (by omega)
  have log : number.log2 < 53 := (Nat.log2_lt (Nat.ne_of_gt positive)).mpr short
  have amount : (0 - Format.binary64.targetExponent (totalExponent number 0)).toNat =
      headroom number := by
    rw [target_exponent, totalExponent, headroom]
    omega
  have parts := filled_canonical positive short (by decide : (-1022 : Int) ≤ 0) (by decide)
  have rounded := round_exact parts .positive 0 (filled_positive positive)
  rw [Nat.pow_zero, Nat.mul_one, Int.natCast_zero, Int.sub_zero] at rounded
  change Float.ofModel (.pack (UnpackedFloat.normalize Format.binary64 (number.toUInt64.toNat : Nat) 0
    .positive)) = _
  rw [same]
  unfold UnpackedFloat.normalize
  rw [show compare (number : Int) 0 = .gt from Int.compare_eq_gt.mpr (by omega)]
  unfold UnpackedFloat.round UnpackedFloat.decreaseExponent
  dsimp only
  rw [Int.toNat_natCast, amount, Nat.shiftLeft_eq, rounded]

theorem five_positive (places : Nat) : 0 < 5 ^ places := Nat.pow_pos (by decide)

theorem five_short {places : Nat} (few : places ≤ 22) : 5 ^ places < 2 ^ 53 :=
  Nat.lt_of_le_of_lt (Nat.pow_le_pow_right (by decide) few) (by decide)

/-- The precomputed powers of ten are exact. -/
theorem precomputed_parts : ∀ places : Fin 23,
    Float.exactlyRepresentablePowersOfTen[places] = .ofModel (.pack (.finite .positive
      (5 ^ places.val * 2 ^ headroom (5 ^ places.val)) (places.val - headroom (5 ^ places.val))
      (filled_positive (five_positive places.val)))) := by
  decide +kernel

theorem filled_value (number : Nat) (base : Int) :
    ((number * 2 ^ headroom number : Nat) : ℚ) * 2 ^ (base - headroom number) = number * 2 ^ base := by
  rw [zpow_sub₀ (by decide), zpow_natCast]
  have power : (2 : ℚ) ^ headroom number ≠ 0 := pow_ne_zero _ (by decide)
  push_cast
  field_simp

theorem ten_value (places : Nat) : ((5 ^ places : Nat) : ℚ) * 2 ^ (places : Int) = 10 ^ places := by
  rw [zpow_natCast]
  push_cast
  rw [← mul_pow]
  norm_num

theorem filled_full {number : Nat} (positive : 0 < number) : 2 ^ 52 ≤ number * 2 ^ headroom number := by
  have shifted := log_shifted positive (headroom number)
  have room : 52 ≤ number.log2 + headroom number := by unfold headroom; omega
  exact (Nat.le_log2 (Nat.ne_of_gt (filled_positive positive))).mp (by omega)

section Reading

variable (near : RoundsTo point mantissa exponent) (parts : Canonical mantissa exponent)
  (positive : 0 < mantissa) {digits places : Nat} (visible : 0 < digits)

include near parts visible

/-- Few digits and a small power of ten: one operation on doubles. -/
theorem RoundsTo.small_scientific (short : digits < 2 ^ 53) (few : places ≤ 22) (negative : Bool)
    (value : point = if negative then (digits : ℚ) / 10 ^ places else digits * 10 ^ places) :
    Float.ofScientific digits negative places =
      .ofModel (.pack (.finite .positive mantissa exponent positive)) := by
  have left := filled_canonical visible short (by decide : (-1022 : Int) ≤ 0) (by decide)
  have right := filled_canonical (five_positive places) (five_short few)
    (by omega : (-1022 : Int) ≤ (places : Int)) (by omega)
  have power := precomputed_parts ⟨places, by omega⟩
  have room : headroom digits ≤ 52 := Nat.sub_le _ _
  have other : headroom (5 ^ places) ≤ 52 := Nat.sub_le _ _
  have number := filled_value digits 0
  rw [zpow_zero, mul_one] at number
  have ten := (filled_value (5 ^ places) places).trans (ten_value places)
  unfold Float.ofScientific
  rw [dif_pos ⟨short, few⟩]
  dsimp only [Fin.getElem_fin] at power ⊢
  rw [power, whole_parts visible short]
  cases negative with
  | true =>
      rw [if_pos rfl, ← number, ← ten] at value
      have divided := near.quotient parts positive (filled_positive visible)
        (filled_positive (five_positive places)) value (by omega)
      change Float.ofModel (.pack (UnpackedFloat.div Format.binary64 (Float.Model.unpack _)
        (Float.Model.unpack _))) = _
      rw [unpack_pack left, unpack_pack right, divided]
  | false =>
      rw [if_neg (by decide), ← number, ← ten] at value
      have full := Nat.le_trans (filled_full visible)
        (Nat.le_mul_of_pos_right _ (filled_positive (five_positive places)))
      have multiplied := near.product parts positive (filled_positive visible)
        (filled_positive (five_positive places)) value (by omega) full
      change Float.ofModel (.pack (UnpackedFloat.mul Format.binary64 (Float.Model.unpack _)
        (Float.Model.unpack _))) = _
      rw [unpack_pack left, unpack_pack right, multiplied]

/-- Any other decimal whose power of ten is in reach: one operation on exact parts. -/
theorem RoundsTo.large_scientific {power : Int} (value : point = digits * 10 ^ power)
    (most : power ≤ 2048) (least : -(2048 + (digits.log2 : Int)) ≤ power) :
    UnpackedFloat.ofScientific Format.binary64 digits power =
      .finite .positive mantissa exponent positive := by
  have range : (2 : Int) ^ Format.binary64.exponentBits = 2048 := rfl
  unfold UnpackedFloat.ofScientific
  rw [dif_neg (Nat.ne_of_gt visible), if_neg (by rw [range]; omega), if_neg (by rw [range]; omega)]
  split
  · rename_i above
    have full : 2 ^ 52 ≤ digits <<< 53 * 10 ^ power.toNat := by
      rw [Nat.shiftLeft_eq]
      have tens : 0 < 10 ^ power.toNat := Nat.pow_pos (by decide)
      calc 2 ^ 52 ≤ digits * 2 ^ 53 := by omega
        _ ≤ digits * 2 ^ 53 * 10 ^ power.toNat := Nat.le_mul_of_pos_right _ tens
    refine near.product parts positive _ _ ?_ (by decide) full
    have whole : (10 : ℚ) ^ power = 10 ^ power.toNat := by
      rw [← zpow_natCast, Int.toNat_of_nonneg above]
    rw [value, whole, mantissa_bits, Nat.shiftLeft_eq]
    push_cast
    rw [zpow_neg]
    norm_num
    ring
  · rename_i below
    refine near.quotient parts positive _ _ ?_ (by decide)
    have inverse : (10 : ℚ) ^ power = ((10 : ℚ) ^ (-power).toNat)⁻¹ := by
      rw [← zpow_natCast, Int.toNat_of_nonneg (by omega), zpow_neg, inv_inv]
    rw [value, inverse]
    push_cast
    rw [mul_one, mul_one, div_eq_mul_inv]

theorem RoundsTo.of_scientific {negative : Bool} {power : Int}
    (same : (if negative then Int.negOfNat places else Int.ofNat places) = power)
    (value : point = digits * 10 ^ power) (most : power ≤ 2048)
    (least : -(2048 + (digits.log2 : Int)) ≤ power) :
    Float.ofScientific digits negative places =
      .ofModel (.pack (.finite .positive mantissa exponent positive)) := by
  by_cases small : digits < 2 ^ 53 ∧ places ≤ 22
  · refine near.small_scientific parts positive visible small.1 small.2 negative ?_
    subst same
    rw [value]
    cases negative with
    | true =>
        rw [if_pos rfl, if_pos rfl, Int.negOfNat_eq, zpow_neg, ← div_eq_mul_inv]
        rfl
    | false => rfl
  · have computed := near.large_scientific parts positive visible value most least
    unfold Float.ofScientific
    rw [dif_neg small]
    dsimp only
    rw [same]
    unfold Float.Model.ofScientific
    rw [computed]

end Reading

/-! ## The range of doubles -/

theorem RoundsTo.point_lt (near : RoundsTo point mantissa exponent)
    (parts : Canonical mantissa exponent) : point < 10 ^ 309 := by
  have small : (mantissa : ℚ) + 1 ≤ 2 ^ 53 := by exact_mod_cast parts.small
  have power : (0 : ℚ) < 2 ^ exponent := zpow_pos (by decide) _
  have high := (div_le_iff₀ power).mp near.whole.high
  calc point
      ≤ (mantissa + 1 / 2) * 2 ^ exponent := high
    _ ≤ 2 ^ 53 * 2 ^ (971 : Int) := by
        refine mul_le_mul (by linarith) ?_ power.le (by positivity)
        exact zpow_le_zpow_right₀ (by norm_num) parts.most
    _ < 10 ^ 309 := by
        rw [show (971 : Int) = ((971 : Nat) : Int) from rfl, zpow_natCast]
        exact_mod_cast (by decide +kernel : 2 ^ 53 * 2 ^ 971 < 10 ^ 309)

theorem RoundsTo.lt_point (near : RoundsTo point mantissa exponent)
    (parts : Canonical mantissa exponent) : (10 : ℚ) ^ (-324 : Int) < point := by
  have visible : (1 : ℚ) ≤ mantissa := by exact_mod_cast parts.positive
  have power : (0 : ℚ) < 2 ^ exponent := zpow_pos (by decide) _
  have low := (le_div_iff₀ power).mp near.whole.low
  have tiny : (10 : ℚ) ^ (-324 : Int) < 1 / 2 * 2 ^ (-1074 : Int) := by
    rw [zpow_neg, zpow_neg, show (324 : Int) = ((324 : Nat) : Int) from rfl,
      show (1074 : Int) = ((1074 : Nat) : Int) from rfl, zpow_natCast, zpow_natCast,
      ← one_div, ← one_div, div_mul_div_comm, one_mul, div_lt_div_iff₀ (by positivity) (by positivity),
      one_mul, one_mul]
    exact_mod_cast (by decide +kernel : 2 * 2 ^ 1074 < 10 ^ 324)
  calc (10 : ℚ) ^ (-324 : Int)
      < 1 / 2 * 2 ^ (-1074 : Int) := tiny
    _ ≤ (mantissa - 1 / 2) * 2 ^ exponent := by
        refine mul_le_mul (by linarith) ?_ (by positivity) (by linarith)
        exact zpow_le_zpow_right₀ (by norm_num) parts.least
    _ ≤ point := low

/-- A decimal is below the power of ten that its number of digits gives, and not below the one before. -/
theorem size_bounds {digits : Nat} (visible : 0 < digits) (power : Int) :
    (10 : ℚ) ^ (power + digitCount digits - 1) ≤ digits * 10 ^ power ∧
      (digits : ℚ) * 10 ^ power < 10 ^ (power + digitCount digits) := by
  have tens : (0 : ℚ) < 10 ^ power := zpow_pos (by norm_num) _
  have counted : 0 < digitCount digits := Nat.length_toDigits_pos
  obtain ⟨rest, count⟩ : ∃ rest, digitCount digits = rest + 1 := ⟨digitCount digits - 1, by omega⟩
  have below : digits < 10 ^ (rest + 1) :=
    (Nat.length_toDigits_le_iff (by decide) (by omega)).mp (Nat.le_of_eq count)
  have above : 10 ^ rest ≤ digits := by
    by_contra short
    rcases Nat.eq_zero_or_pos rest with rfl | more
    · omega
    · have bound : digitCount digits ≤ rest :=
        (Nat.length_toDigits_le_iff (by decide) more).mpr (by omega)
      omega
  rw [count]
  constructor
  · rw [show power + ((rest + 1 : Nat) : Int) - 1 = rest + power by push_cast; ring,
      zpow_add₀ (by norm_num), zpow_natCast]
    exact mul_le_mul_of_nonneg_right (by exact_mod_cast above) tens.le
  · rw [show power + ((rest + 1 : Nat) : Int) = ((rest + 1 : Nat) : Int) + power by ring,
      zpow_add₀ (by norm_num), zpow_natCast]
    exact mul_lt_mul_of_pos_right (by exact_mod_cast below) tens

theorem count_le_log (digits : Nat) : digitCount digits ≤ digits.log2 + 1 := by
  refine (Nat.length_toDigits_le_iff (by decide) (by omega)).mpr ?_
  exact Nat.lt_of_lt_of_le Nat.lt_log2_self (Nat.pow_le_pow_left (by decide) _)

/-- A decimal is read as the double that it rounds to. -/
theorem RoundsTo.nearest_decimal {digits : Nat} {power : Int}
    (near : RoundsTo (digits * 10 ^ power) mantissa exponent) (parts : Canonical mantissa exponent)
    (positive : 0 < mantissa) (visible : 0 < digits) :
    nearest digits power = .ofModel (.pack (.finite .positive mantissa exponent positive)) := by
  obtain ⟨low, high⟩ := size_bounds visible power
  have most : power + digitCount digits - 1 < (309 : Nat) := by
    refine (zpow_lt_zpow_iff_right₀ (by norm_num : (1 : ℚ) < 10)).mp ?_
    rw [zpow_natCast]
    exact lt_of_le_of_lt low (near.point_lt parts)
  have least : -324 < power + digitCount digits :=
    (zpow_lt_zpow_iff_right₀ (by norm_num : (1 : ℚ) < 10)).mp (lt_trans (near.lt_point parts) high)
  have counted : 0 < digitCount digits := Nat.length_toDigits_pos
  have count := count_le_log digits
  unfold nearest
  dsimp only
  rw [if_neg (Nat.ne_of_gt visible), if_neg (by omega), if_neg (by omega)]
  refine near.of_scientific parts positive visible ?_ rfl (by omega) (by omega)
  by_cases below : power < 0
  · rw [if_pos (decide_eq_true below), Int.negOfNat_eq]
    change -((power.natAbs : Nat) : Int) = power
    omega
  · rw [if_neg (by simpa using below)]
    change ((power.natAbs : Nat) : Int) = power
    omega

end PolicyLevers.Decimal
