import PolicyLevers.Proofs.DoubleParts
import PolicyLevers.Random.Uniform

/-!
# Intervals too wide to draw from

A uniform draw divides the width of its interval by `1 - 2 ^ -52`.  Of the finite widths the quotient of
just two is beyond the range of doubles: the largest double and the one before it.
-/

namespace PolicyLevers.Decimal

set_option autoImplicit false

open Float.Model (Format UnpackedFloat totalExponent)
open Float.Model.UnpackedFloat (Sign Accuracy ExtendedMantissa)

/-! ## Rounding to 53 bits -/

theorem shift_mantissa (amount : Nat) (extended : ExtendedMantissa) :
    (extended >>> amount).mantissa = extended.mantissa / 2 ^ amount := by
  induction amount with
  | zero => exact (Nat.div_one _).symm
  | succ amount ih =>
      change (ExtendedMantissa.shiftRightOne (extended >>> amount)).mantissa = _
      rw [ExtendedMantissa.shiftRightOne, ih, Nat.div_div_eq_div_mul, ← Nat.pow_succ]

theorem extended_mantissa (mantissa : Nat) (accuracy : Accuracy) :
    (ExtendedMantissa.ofMantissaAndAccuracy mantissa accuracy).mantissa = mantissa := by
  cases accuracy with
  | exact => rfl
  | inexact order => cases order <;> rfl

theorem rounded_bounds (extended : ExtendedMantissa) :
    extended.mantissa ≤ extended.roundedMantissa ∧
      extended.roundedMantissa ≤ extended.mantissa + 1 := by
  unfold ExtendedMantissa.roundedMantissa
  cases extended.accuracy with
  | exact => exact ⟨Nat.le_refl _, Nat.le_succ _⟩
  | inexact order => cases order <;> simp only [Accuracy.roundToNearestEven] <;> omega

def surplus (mantissa : Nat) : Nat := mantissa.log2 - 52

theorem surplus_amount (mantissa : Nat) {exponent : Int} (least : -1074 ≤ exponent) :
    (Format.binary64.targetExponent (totalExponent mantissa exponent) - exponent).toNat =
      surplus mantissa := by
  rw [target_exponent, totalExponent, surplus]
  omega

theorem kept_lt (mantissa : Nat) : mantissa / 2 ^ surplus mantissa < 2 ^ 53 := by
  rw [Nat.div_lt_iff_lt_mul (Nat.two_pow_pos _), ← Nat.pow_add]
  exact Nat.lt_of_lt_of_le Nat.lt_log2_self
    (Nat.pow_le_pow_right (by decide) (by rw [surplus]; omega))

theorem surplus_of_short {mantissa : Nat} (short : mantissa < 2 ^ 53) : surplus mantissa = 0 := by
  rcases Nat.eq_zero_or_pos mantissa with rfl | positive
  · rfl
  · have below := (Nat.log2_lt (Nat.ne_of_gt positive)).mpr short
    rw [surplus]
    omega

theorem kept_full {mantissa : Nat} (long : 2 ^ 52 ≤ mantissa) :
    2 ^ 52 ≤ mantissa / 2 ^ surplus mantissa := by
  have above : 52 ≤ mantissa.log2 := (Nat.le_log2 (by omega)).mpr long
  rw [Nat.le_div_iff_mul_le (Nat.two_pow_pos _), ← Nat.pow_add, surplus]
  rw [show 52 + (mantissa.log2 - 52) = mantissa.log2 by omega]
  exact Nat.log2_self_le (by omega)

theorem kept_positive {mantissa : Nat} (positive : 0 < mantissa) :
    0 < mantissa / 2 ^ surplus mantissa := by
  by_cases long : 2 ^ 52 ≤ mantissa
  · have full := kept_full long
    omega
  · rw [surplus_of_short (by omega), Nat.pow_zero, Nat.div_one]
    exact positive

/-- Rounding takes the surplus off, moves up by one at most, and takes off what that adds. -/
theorem round_parts (sign : Sign) {mantissa : Nat} {exponent : Int} (accuracy : Accuracy)
    (positive : 0 < mantissa) (least : -1074 ≤ exponent) :
    ∃ rounded, mantissa / 2 ^ surplus mantissa ≤ rounded ∧
      rounded ≤ mantissa / 2 ^ surplus mantissa + 1 ∧
      ∃ visible, UnpackedFloat.roundWithAccuracy Format.binary64 sign mantissa exponent accuracy =
        .finite sign (rounded / 2 ^ surplus rounded) (exponent + surplus mantissa + surplus rounded)
          visible := by
  let extended := ExtendedMantissa.ofMantissaAndAccuracy mantissa accuracy >>> surplus mantissa
  have kept : extended.mantissa = mantissa / 2 ^ surplus mantissa := by
    rw [shift_mantissa, extended_mantissa]
  obtain ⟨lower, upper⟩ := rounded_bounds extended
  rw [kept] at lower upper
  have visible : 0 < extended.roundedMantissa / 2 ^ surplus extended.roundedMantissa :=
    kept_positive (Nat.lt_of_lt_of_le (kept_positive positive) lower)
  refine ⟨extended.roundedMantissa, lower, upper, visible, ?_⟩
  -- the second shift has something to do only if rounding filled a further bit
  unfold UnpackedFloat.roundWithAccuracy UnpackedFloat.shiftToTargetExponent
    UnpackedFloat.shiftToExponent
  simp only [surplus_amount mantissa least]
  simp only [surplus_amount _ (by omega : -1074 ≤ exponent + (surplus mantissa : Int)),
    shift_mantissa, extended_mantissa]
  exact dif_neg (Nat.ne_of_gt visible)

theorem surplus_of_carry {mantissa : Nat} (long : 2 ^ 53 ≤ mantissa) (carried : mantissa < 2 ^ 54) :
    surplus mantissa = 1 := by
  have above : 53 ≤ mantissa.log2 := (Nat.le_log2 (by omega)).mpr long
  have below := (Nat.log2_lt (by omega)).mpr carried
  rw [surplus]
  omega

/-- A rounded number keeps canonical parts as long as its exponent is in range. -/
theorem rounded_canonical {mantissa rounded : Nat} {exponent : Int} (positive : 0 < mantissa)
    (least : -1074 ≤ exponent) (full : exponent = -1074 ∨ 2 ^ 52 ≤ mantissa)
    (lower : mantissa / 2 ^ surplus mantissa ≤ rounded)
    (upper : rounded ≤ mantissa / 2 ^ surplus mantissa + 1)
    (most : exponent + surplus mantissa + surplus rounded ≤ 971) :
    Canonical (rounded / 2 ^ surplus rounded) (exponent + surplus mantissa + surplus rounded) := by
  refine ⟨kept_positive (Nat.lt_of_lt_of_le (kept_positive positive) lower), kept_lt rounded,
    by omega, most, ?_⟩
  by_cases long : 2 ^ 52 ≤ mantissa
  · exact .inr (kept_full (Nat.le_trans (kept_full long) lower))
  · have short := surplus_of_short (by omega : mantissa < 2 ^ 53)
    rw [short, Nat.pow_zero, Nat.div_one] at upper
    rw [short, surplus_of_short (by omega : rounded < 2 ^ 53)]
    exact full.imp (fun lowest => by omega) (fun contrary => absurd contrary long)

theorem round_sign (sign : Sign) {mantissa : Nat} {exponent : Int} (positive : 0 < mantissa)
    (least : -1074 ≤ exponent) :
    ∃ result scale visible,
      UnpackedFloat.round Format.binary64 sign mantissa exponent = .finite sign result scale visible ∧
        (scale ≤ 971 → Canonical result scale) := by
  unfold UnpackedFloat.round UnpackedFloat.decreaseExponent
  dsimp only
  rw [target_exponent, totalExponent]
  generalize shift : (exponent - max ((mantissa.log2 : Int) + 1 + exponent - 53) (-1074)).toNat = amount
  have shifted := log_shifted positive amount
  have grown : 0 < mantissa * 2 ^ amount := Nat.mul_pos positive (Nat.two_pow_pos amount)
  have full : exponent - amount = -1074 ∨ 2 ^ 52 ≤ mantissa * 2 ^ amount := by
    by_cases lowest : exponent - amount = -1074
    · exact .inl lowest
    · exact .inr ((Nat.le_log2 (Nat.ne_of_gt grown)).mp (by omega))
  obtain ⟨rounded, lower, upper, visible, same⟩ :=
    round_parts sign .exact grown (by omega : -1074 ≤ exponent - amount)
  rw [Nat.shiftLeft_eq]
  exact ⟨_, _, visible, same, rounded_canonical grown (by omega) full lower upper⟩

/-! ## The range of doubles -/

theorem canonical_is_finite {mantissa : Nat} {exponent : Int} (parts : Canonical mantissa exponent)
    (sign : Sign) (positive : 0 < mantissa) :
    (Float.ofModel (.pack (.finite sign mantissa exponent positive))).isFinite = true := by
  change (Float.Model.pack (.finite sign mantissa exponent positive)).unpack.isFinite = true
  rw [unpack_pack parts]
  rfl

theorem high_exponent_is_infinite {mantissa : Nat} {exponent : Int} (high : 971 < exponent)
    (sign : Sign) (positive : 0 < mantissa) :
    (Float.ofModel (.pack (.finite sign mantissa exponent positive))).isFinite = false := by
  have beyond : UnpackedFloat.pack Format.binary64 (.finite sign mantissa exponent positive) =
      UnpackedFloat.pack Format.binary64 (.infinity sign) := by
    unfold UnpackedFloat.pack
    dsimp only
    refine if_pos ?_
    rw [exponent_bias]
    change 2048 ≤ (exponent + (1023 : Nat) + (52 : Nat)).toNat + 1
    omega
  have same : Float.Model.pack (.finite sign mantissa exponent positive) = .pack (.infinity sign) := by
    simp only [Float.Model.pack, beyond]
  rw [same]
  cases sign <;> rfl

theorem unpack_zero (sign : Sign) : (Float.Model.pack (.zero sign)).unpack = .zero sign := by
  cases sign <;> rfl

theorem finite_parts {value : Float} (finite : value.isFinite = true) :
    (∃ sign, value.toModel.unpack = .zero sign) ∨
      ∃ sign mantissa exponent positive, Canonical mantissa exponent ∧
        value.toModel.unpack = .finite sign mantissa exponent positive := by
  rcases finite_cases finite with ⟨sign, rfl⟩ | ⟨sign, mantissa, exponent, positive, parts, rfl⟩
  · exact .inl ⟨sign, unpack_zero sign⟩
  · exact .inr ⟨sign, mantissa, exponent, positive, parts, unpack_pack parts sign positive⟩

/-! ## Differences -/

theorem finite_operands {high low : Float} (finite : (high - low).isFinite = true) :
    high.isFinite = true ∧ low.isFinite = true := by
  change (Float.Model.pack (UnpackedFloat.sub Format.binary64 high.toModel.unpack
    low.toModel.unpack)).unpack.isFinite = true at finite
  change high.toModel.unpack.isFinite = true ∧ low.toModel.unpack.isFinite = true
  have number : ∀ sign, (Float.Model.pack (.infinity sign)).unpack.isFinite = false := by
    rintro (_ | _) <;> rfl
  have nothing : (Float.Model.pack .notANumber).unpack.isFinite = false := rfl
  cases highParts : high.toModel.unpack <;> cases lowParts : low.toModel.unpack <;>
    simp only [highParts, lowParts, UnpackedFloat.sub, number, nothing] at finite ⊢
  case infinity.infinity => split at finite <;> simp only [number, nothing] at finite <;> cases finite
  all_goals first | cases finite | exact ⟨rfl, rfl⟩

def lowered (mantissa : Nat) (exponent base : Int) : Nat :=
  (UnpackedFloat.decreaseExponent mantissa exponent base).1

/-- Parts in order are in order at their common exponent. -/
theorem lowered_le {mantissa other : Nat} {exponent further : Int} (parts : Canonical mantissa exponent)
    (others : Canonical other further)
    (ordered : ((compare exponent further).then (compare mantissa other)).isLE = true) :
    lowered mantissa exponent (min exponent further) ≤ lowered other further (min exponent further) := by
  unfold lowered UnpackedFloat.decreaseExponent
  dsimp only
  rw [Nat.shiftLeft_eq, Nat.shiftLeft_eq]
  cases exponents : compare exponent further with
  | lt =>
      -- the higher exponent belongs to a full mantissa, and its one bit more outweighs any other
      have below := Int.compare_eq_lt.mp exponents
      have least := parts.least
      have full := others.full.resolve_left (by omega)
      obtain ⟨amount, distance⟩ : ∃ amount, (further - min exponent further).toNat = amount + 1 :=
        ⟨(further - exponent).toNat - 1, by omega⟩
      rw [distance, show (exponent - min exponent further).toNat = 0 by omega, Nat.pow_zero, Nat.mul_one]
      calc mantissa
          ≤ 2 ^ 52 * 2 := Nat.le_of_lt parts.small
        _ ≤ other * 2 ^ (amount + 1) :=
            Nat.mul_le_mul full (Nat.le_self_pow (Nat.succ_ne_zero amount) 2)
  | eq =>
      cases Int.compare_eq_eq.mp exponents
      rw [exponents] at ordered
      exact Nat.mul_le_mul_right _ (Nat.isLE_compare.mp ordered)
  | gt =>
      rw [exponents] at ordered
      cases ordered

/-- A zero, or a positive number with canonical parts unless it is beyond the range of doubles. -/
def Unsigned (value : UnpackedFloat) : Prop :=
  (∃ sign, value = .zero sign) ∨ ∃ mantissa exponent positive,
    value = .finite .positive mantissa exponent positive ∧ (exponent ≤ 971 → Canonical mantissa exponent)

theorem normalized_unsigned {amount exponent : Int} (above : 0 ≤ amount) (least : -1074 ≤ exponent) :
    Unsigned (UnpackedFloat.normalize Format.binary64 amount exponent .positive) := by
  unfold UnpackedFloat.normalize
  cases order : compare amount 0 with
  | lt =>
      have below := Int.compare_eq_lt.mp order
      omega
  | eq => exact .inl ⟨.positive, rfl⟩
  | gt =>
      have positive := Int.compare_eq_gt.mp order
      exact .inr (round_sign .positive (by omega) least)

theorem ordered_amount {sign lowSign : Sign} {mantissa lowMantissa : Nat} {exponent lowExponent : Int}
    {positive : 0 < mantissa} {lowPositive : 0 < lowMantissa} (parts : Canonical mantissa exponent)
    (others : Canonical lowMantissa lowExponent)
    (ordered : ((UnpackedFloat.finite lowSign lowMantissa lowExponent lowPositive).compare
      (.finite sign mantissa exponent positive)).any (fun order => order.isLE) = true) :
    0 ≤ sign.apply (lowered mantissa exponent (min exponent lowExponent)) -
      lowSign.apply (lowered lowMantissa lowExponent (min exponent lowExponent)) := by
  cases sign with
  | positive =>
      cases lowSign with
      | positive =>
          have below := lowered_le others parts ordered
          rw [min_comm] at below
          simp only [Sign.apply]
          omega
      | negative =>
          simp only [Sign.apply]
          omega
  | negative =>
      cases lowSign with
      | positive => cases ordered
      | negative =>
          have reversed : ((compare exponent lowExponent).then (compare mantissa lowMantissa)).isLE =
              true := by
            have swapped : (((compare lowExponent exponent).then (compare lowMantissa mantissa)).swap).isLE =
                true := ordered
            rwa [Ordering.swap_then, Std.OrientedCmp.eq_swap.symm, Std.OrientedCmp.eq_swap.symm] at swapped
          have below := lowered_le parts others reversed
          simp only [Sign.apply]
          omega

theorem ordered_parts {low high : Float} (ordered : low ≤ high) :
    (low.toModel.unpack.compare high.toModel.unpack).any (fun order => order.isLE) = true := by
  exact of_decide_eq_true ordered

theorem subtracted_unsigned {low high : Float} (ordered : low ≤ high) (highFinite : high.isFinite = true)
    (lowFinite : low.isFinite = true) :
    Unsigned (UnpackedFloat.sub Format.binary64 high.toModel.unpack low.toModel.unpack) := by
  have order := ordered_parts ordered
  rcases finite_parts highFinite with
    ⟨sign, highParts⟩ | ⟨sign, mantissa, exponent, positive, parts, highParts⟩
  · rcases finite_parts lowFinite with
      ⟨lowSign, lowParts⟩ | ⟨lowSign, lowMantissa, lowExponent, lowPositive, others, lowParts⟩
    · rw [highParts, lowParts]
      unfold UnpackedFloat.sub
      dsimp only
      split <;> exact .inl ⟨_, rfl⟩
    · rw [highParts, lowParts] at order ⊢
      cases lowSign with
      | negative => exact .inr ⟨_, _, _, rfl, fun _ => others⟩
      | positive => cases order
  · rcases finite_parts lowFinite with
      ⟨lowSign, lowParts⟩ | ⟨lowSign, lowMantissa, lowExponent, lowPositive, others, lowParts⟩
    · rw [highParts, lowParts] at order ⊢
      cases sign with
      | negative => cases order
      | positive => exact .inr ⟨_, _, _, rfl, fun _ => parts⟩
    · rw [highParts, lowParts] at order ⊢
      exact normalized_unsigned (ordered_amount parts others order) (le_min parts.least others.least)

/-- The difference of doubles in order has no negative sign. -/
theorem ordered_difference {low high : Float} (ordered : low ≤ high)
    (finite : (high - low).isFinite = true) :
    (∃ sign, high - low = .ofModel (.pack (.zero sign))) ∨
      ∃ mantissa exponent positive, Canonical mantissa exponent ∧
        high - low = .ofModel (.pack (.finite .positive mantissa exponent positive)) := by
  obtain ⟨highFinite, lowFinite⟩ := finite_operands finite
  have packed := difference_of_parts high low
  rcases subtracted_unsigned ordered highFinite lowFinite with
    ⟨sign, zero⟩ | ⟨mantissa, exponent, positive, parts, canonical⟩
  · exact .inl ⟨sign, by rw [packed, zero]⟩
  · rw [parts] at packed
    have most : exponent ≤ 971 := by
      by_contra high
      rw [packed, high_exponent_is_infinite (by omega)] at finite
      cases finite
    exact .inr ⟨mantissa, exponent, positive, canonical most, packed⟩

end PolicyLevers.Decimal

namespace PolicyLevers.Random.Uniform

open Float.Model (Format UnpackedFloat totalExponent)
open Float.Model.UnpackedFloat (Sign)
open Decimal

set_option autoImplicit false

/-- The mantissa of `1 - 2 ^ -52`. -/
def fractionMantissa : Nat := 2 ^ 53 - 2

theorem largest_fraction_parts :
    largestFraction.toModel.unpack = .finite .positive fractionMantissa (-53) (by decide) := by
  rfl

def quotient (mantissa : Nat) : Nat := mantissa * 2 ^ 53 / fractionMantissa

theorem quotient_bounds {mantissa : Nat} (small : mantissa < 2 ^ 53) :
    mantissa ≤ quotient mantissa ∧ quotient mantissa ≤ 2 ^ 53 + 1 ∧
      (mantissa < fractionMantissa → quotient mantissa ≤ mantissa + 1) ∧
      (fractionMantissa ≤ mantissa → 2 ^ 53 ≤ quotient mantissa) := by
  unfold quotient fractionMantissa
  omega

theorem divided_core {mantissa : Nat} {exponent : Int} (parts : Canonical mantissa exponent) :
    UnpackedFloat.divCore Format.binary64 mantissa exponent fractionMantissa (-53) =
      (quotient mantissa, exponent,
        UnpackedFloat.accuracyOfFraction (mantissa * 2 ^ 53 % fractionMantissa) fractionMantissa) := by
  have one : totalExponent fractionMantissa (-53) = 0 := by rfl
  have lowest : min (exponent - -53) exponent = exponent := by omega
  have amount : (exponent - -53 - exponent).toNat = 53 := by omega
  unfold UnpackedFloat.divCore
  rw [one, Int.sub_zero, parts.target, lowest]
  dsimp only
  rw [amount, Nat.shiftLeft_eq]
  rfl

theorem divided_parts {mantissa : Nat} {exponent : Int} (parts : Canonical mantissa exponent)
    (sign : Sign) (positive : 0 < mantissa) :
    ∃ rounded, rounded ≤ quotient mantissa / 2 ^ surplus (quotient mantissa) + 1 ∧
      ∃ visible, (Float.ofModel (.pack (.finite sign mantissa exponent positive))) / largestFraction =
          .ofModel (.pack (.finite (sign / .positive) (rounded / 2 ^ surplus rounded)
            (exponent + surplus (quotient mantissa) + surplus rounded) visible)) ∧
        (exponent + surplus (quotient mantissa) + surplus rounded ≤ 971 →
          Canonical (rounded / 2 ^ surplus rounded)
            (exponent + surplus (quotient mantissa) + surplus rounded)) := by
  have least := (quotient_bounds parts.small).1
  have full : exponent = -1074 ∨ 2 ^ 52 ≤ quotient mantissa :=
    parts.full.imp_right (fun long => Nat.le_trans long least)
  have whole : 0 < quotient mantissa := Nat.lt_of_lt_of_le positive least
  obtain ⟨rounded, lower, upper, visible, same⟩ := round_parts (sign / .positive)
    (UnpackedFloat.accuracyOfFraction (mantissa * 2 ^ 53 % fractionMantissa) fractionMantissa)
    whole parts.least
  refine ⟨rounded, upper, visible, ?_, rounded_canonical whole parts.least full lower upper⟩
  change Float.ofModel (.pack (UnpackedFloat.div Format.binary64
    (Float.Model.pack (.finite sign mantissa exponent positive)).unpack
    largestFraction.toModel.unpack)) = _
  rw [unpack_pack parts, largest_fraction_parts]
  unfold UnpackedFloat.div
  dsimp only
  rw [divided_core parts]
  dsimp only
  rw [same]

/-- The quotient leaves the range of doubles if the width has the highest exponent and one of the last
two mantissas. -/
theorem quotient_overflow {mantissa : Nat} {exponent : Int} (parts : Canonical mantissa exponent)
    (sign : Sign) (positive : 0 < mantissa) :
    ((Float.ofModel (.pack (.finite sign mantissa exponent positive))) / largestFraction).isFinite =
      false ↔ exponent = 971 ∧ fractionMantissa ≤ mantissa := by
  obtain ⟨least, under, close, wide⟩ := quotient_bounds parts.small
  obtain ⟨rounded, upper, visible, divided, canonical⟩ := divided_parts parts sign positive
  have most := parts.most
  rw [divided]
  by_cases long : fractionMantissa ≤ mantissa
  · -- the quotient has one bit more than the width, which the exponent has to take
    have carry := surplus_of_carry (wide long) (by omega)
    rw [carry, Nat.pow_one] at upper
    have rest := surplus_of_short (by omega : rounded < 2 ^ 53)
    by_cases top : exponent = 971
    · exact iff_of_true (high_exponent_is_infinite (by omega) _ visible) ⟨top, long⟩
    · refine iff_of_false ?_ (fun contrary => top contrary.1)
      rw [canonical_is_finite (canonical (by omega))]
      decide
  · have near := close (by omega)
    refine iff_of_false ?_ (fun contrary => long contrary.2)
    unfold fractionMantissa at long
    have short := surplus_of_short (by omega : quotient mantissa < 2 ^ 53)
    rw [short, Nat.pow_zero, Nat.div_one] at upper
    have rest := surplus_of_short (by omega : rounded < 2 ^ 53)
    rw [canonical_is_finite (canonical (by omega))]
    decide

/-- The largest double or the one before it. -/
def Overwide (width : Float) : Prop :=
  width = Float.ofBits 0x7FEFFFFFFFFFFFFE ∨ width = Float.ofBits 0x7FEFFFFFFFFFFFFF

instance (width : Float) : Decidable (Overwide width) := inferInstanceAs (Decidable (_ ∨ _))

theorem overwide_finite {width : Float} (wide : Overwide width) : width.isFinite = true := by
  rcases wide with rfl | rfl <;> decide +kernel

theorem overwide_quotient {width : Float} (wide : Overwide width) :
    (width / largestFraction).isFinite = false := by
  rcases wide with rfl | rfl <;> decide +kernel

theorem overwide_of_parts {mantissa : Nat} (small : mantissa < 2 ^ 53)
    (high : fractionMantissa ≤ mantissa) (positive : 0 < mantissa) :
    Overwide (.ofModel (.pack (.finite .positive mantissa 971 positive))) := by
  unfold fractionMantissa at high
  obtain rfl | rfl : mantissa = 2 ^ 53 - 2 ∨ mantissa = 2 ^ 53 - 1 := by omega
  · exact .inl rfl
  · exact .inr rfl

/-- A draw between bounds in order and finitely far apart has a result unless the width is one of the two
largest doubles. -/
theorem scale_missing {low high : Float} (ordered : low ≤ high)
    (finite : (high - low).isFinite = true) : scale? low high = none ↔ Overwide (high - low) := by
  have missing : scale? low high = none ↔ ((high - low) / largestFraction).isFinite = false := by
    unfold scale?
    cases found : ((high - low) / largestFraction).isFinite <;> simp [found]
  rw [missing]
  refine ⟨fun beyond => ?_, overwide_quotient⟩
  rcases ordered_difference ordered finite with ⟨sign, zero⟩ | ⟨mantissa, exponent, positive, parts, width⟩
  · rw [zero] at beyond
    cases sign <;> cases beyond
  · rw [width] at beyond ⊢
    obtain ⟨rfl, high⟩ := (quotient_overflow parts .positive positive).mp beyond
    exact overwide_of_parts parts.small high positive

end PolicyLevers.Random.Uniform
