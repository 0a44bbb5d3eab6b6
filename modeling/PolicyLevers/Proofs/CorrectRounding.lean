import PolicyLevers.Proofs.UniformWidths

/-!
# Points that round to a double

The points that round to a double form an interval around it, whose ends count if its mantissa is even.
A mantissa with a round bit and a sticky bit says where a point lies between two whole numbers, and
shifting keeps this.  So rounding takes every point of the interval to the parts of the double.
-/

namespace PolicyLevers.Decimal

set_option autoImplicit false

open Float.Model (Format UnpackedFloat totalExponent)
open Float.Model.UnpackedFloat (Sign Accuracy ExtendedMantissa)

/-! ## Intervals -/

/-- The whole number is nearest to the amount, and of two that are equally near it is the even one. -/
structure NearestWhole (amount : ℚ) (whole : Nat) : Prop where
  low : whole - 1 / 2 ≤ amount
  high : amount ≤ whole + 1 / 2
  odd : whole % 2 = 1 → whole - 1 / 2 < amount ∧ amount < whole + 1 / 2

/-- The positive point rounds to the double with these parts.  Below the least full mantissa doubles are
closer by half. -/
structure RoundsTo (point : ℚ) (mantissa : Nat) (exponent : Int) : Prop where
  whole : NearestWhole (point / 2 ^ exponent) mantissa
  narrow : mantissa = 2 ^ 52 → -1074 < exponent → mantissa - 1 / 4 ≤ point / 2 ^ exponent

theorem NearestWhole.unique {amount : ℚ} {whole other : Nat} (nearest : NearestWhole amount whole)
    (near : NearestWhole amount other) : whole = other := by
  have ordered {first second : Nat} (one : NearestWhole amount first)
      (two : NearestWhole amount second) : first ≤ second := by
    by_contra above
    have step : second + 1 ≤ first := by omega
    have gap : (second : ℚ) + 1 ≤ first := by exact_mod_cast step
    have low := one.low
    have high := two.high
    -- the amount is half way between them, so both have to be even
    have same : (first : ℚ) = second + 1 := by linarith
    have next : first = second + 1 := by exact_mod_cast same
    rcases Nat.mod_two_eq_zero_or_one second with even | odd
    · have strict := (one.odd (by omega)).1
      linarith
    · have strict := (two.odd odd).2
      linarith
  exact Nat.le_antisymm (ordered nearest near) (ordered near nearest)

/-! ## Round and sticky bits -/

/-- Where an amount lies between a mantissa and the next, as its two residual bits say. -/
def Extends (amount : ℚ) : ExtendedMantissa → Prop
  | ⟨mantissa, false, false⟩ => amount = mantissa
  | ⟨mantissa, false, true⟩ => mantissa < amount ∧ amount < mantissa + 1 / 2
  | ⟨mantissa, true, false⟩ => amount = mantissa + 1 / 2
  | ⟨mantissa, true, true⟩ => mantissa + 1 / 2 < amount ∧ amount < mantissa + 1

variable {amount : ℚ} {extended : ExtendedMantissa}

theorem Extends.bounds (placed : Extends amount extended) :
    extended.mantissa ≤ amount ∧ amount < extended.mantissa + 1 := by
  obtain ⟨mantissa, round, sticky⟩ := extended
  cases round <;> cases sticky <;> simp only [Extends] at placed ⊢ <;> constructor <;> linarith

theorem Extends.shift_one (placed : Extends amount extended) :
    Extends (amount / 2) extended.shiftRightOne := by
  obtain ⟨mantissa, round, sticky⟩ := extended
  obtain ⟨half, rfl | rfl⟩ : ∃ half, mantissa = 2 * half ∨ mantissa = 2 * half + 1 :=
    ⟨mantissa / 2, by omega⟩
  · have kept : 2 * half / 2 = half := by omega
    have bit : (2 * half % 2 != 0) = false := by simp
    cases round <;> cases sticky <;>
      simp only [ExtendedMantissa.shiftRightOne, kept, bit, Bool.or_false, Bool.or_true, Extends]
        at placed ⊢ <;>
      push_cast at placed <;> (try constructor) <;> linarith
  · have kept : (2 * half + 1) / 2 = half := by omega
    have bit : ((2 * half + 1) % 2 != 0) = true := by simp
    cases round <;> cases sticky <;>
      simp only [ExtendedMantissa.shiftRightOne, kept, bit, Bool.or_false, Bool.or_true, Extends]
        at placed ⊢ <;>
      push_cast at placed <;> (try constructor) <;> linarith

/-- Shifting right loses nothing that the residual bits do not keep. -/
theorem Extends.shift (placed : Extends amount extended) (count : Nat) :
    Extends (amount / 2 ^ count) (extended >>> count) := by
  induction count with
  | zero => rwa [pow_zero, div_one]
  | succ count ih =>
      have once := ih.shift_one
      rwa [div_div, ← pow_succ] at once

theorem Extends.nearest (placed : Extends amount extended) :
    NearestWhole amount extended.roundedMantissa := by
  obtain ⟨mantissa, round, sticky⟩ := extended
  cases round <;> cases sticky <;>
    simp only [Extends, ExtendedMantissa.roundedMantissa, ExtendedMantissa.accuracy,
      Accuracy.roundToNearestEven] at placed ⊢
  case false.false => exact ⟨by linarith, by linarith, fun _ => ⟨by linarith, by linarith⟩⟩
  case false.true => exact ⟨by linarith, by linarith, fun _ => ⟨by linarith, by linarith⟩⟩
  case true.false =>
    rcases Nat.mod_two_eq_zero_or_one mantissa with even | odd
    · rw [even, Nat.add_zero]
      exact ⟨by linarith, by linarith, fun contrary => by omega⟩
    · rw [odd]
      exact ⟨by push_cast; linarith, by push_cast; linarith, fun contrary => by omega⟩
  case true.true =>
    exact ⟨by push_cast; linarith, by push_cast; linarith,
      fun _ => ⟨by push_cast; linarith, by push_cast; linarith⟩⟩

/-! ## Rounding a point -/

variable {point : ℚ} {mantissa kept rounded : Nat} {exponent scale : Int}

theorem rescaled (point : ℚ) {scale exponent : Int} {distance : Nat}
    (apart : exponent = scale + distance) :
    point / 2 ^ scale = point / 2 ^ exponent * 2 ^ distance := by
  have power : (2 : ℚ) ^ scale ≠ 0 := zpow_ne_zero _ (by decide)
  rw [apart, zpow_add₀ (by decide), zpow_natCast]
  field_simp

/-- A point that rounds to a double has the scale of the double, or the next lower one at which it
rounds up to a bit more than fits. -/
theorem RoundsTo.scale_cases (near : RoundsTo point mantissa exponent) (parts : Canonical mantissa exponent)
    (nearest : NearestWhole (point / 2 ^ scale) rounded)
    (above : kept ≤ point / 2 ^ scale) (below : point / 2 ^ scale < kept + 1)
    (short : kept < 2 ^ 53) (least : -1074 ≤ scale) (full : scale = -1074 ∨ 2 ^ 52 ≤ kept) :
    (scale = exponent ∧ rounded = mantissa) ∨
      (scale + 1 = exponent ∧ rounded = 2 ^ 53 ∧ mantissa = 2 ^ 52) := by
  have lowest := parts.least
  have small : (mantissa : ℚ) ≤ 2 ^ 53 - 1 := by
    have bound : mantissa + 1 ≤ 2 ^ 53 := parts.small
    have cast : (mantissa : ℚ) + 1 ≤ 2 ^ 53 := by exact_mod_cast bound
    linarith
  have fits : (kept : ℚ) + 1 ≤ 2 ^ 53 := by exact_mod_cast short
  have low := near.whole.low
  have high := near.whole.high
  rcases lt_trichotomy scale exponent with lower | same | higher
  · have long : 2 ^ 52 ≤ mantissa := parts.full.resolve_left (by omega)
    have wide : (2 : ℚ) ^ 52 ≤ mantissa := by exact_mod_cast long
    obtain ⟨distance, apart⟩ : ∃ distance : Nat, exponent = scale + ((distance + 1 : Nat) : Int) :=
      ⟨(exponent - scale - 1).toNat, by omega⟩
    have moved := rescaled point apart
    rcases Nat.eq_zero_or_pos distance with rfl | further
    · -- one bit lower: the point is below the least full mantissa
      norm_num at moved
      have under : (mantissa : ℚ) < 2 ^ 52 + 1 := by linarith
      have strict : mantissa < 2 ^ 52 + 1 := by exact_mod_cast under
      obtain rfl : mantissa = 2 ^ 52 := by omega
      have close := near.narrow rfl (by omega)
      push_cast at close
      have up : NearestWhole (point / 2 ^ scale) (2 ^ 53) :=
        ⟨by push_cast; linarith, by push_cast; linarith, fun odd => by norm_num at odd⟩
      exact .inr ⟨by omega, nearest.unique up, rfl⟩
    · have four : (4 : ℚ) ≤ 2 ^ (distance + 1) := by
        calc (4 : ℚ) = 2 ^ 2 := by norm_num
          _ ≤ 2 ^ (distance + 1) := pow_le_pow_right₀ (by norm_num) (by omega)
      have large : point / 2 ^ exponent * 4 ≤ point / 2 ^ scale := by
        rw [moved]
        exact mul_le_mul_of_nonneg_left four (by linarith)
      linarith
  · subst same
    exact .inl ⟨rfl, nearest.unique near.whole⟩
  · have wide : (2 : ℚ) ^ 52 ≤ kept := by exact_mod_cast full.resolve_left (by omega)
    obtain ⟨distance, apart⟩ : ∃ distance : Nat, scale = exponent + ((distance + 1 : Nat) : Int) :=
      ⟨(scale - exponent - 1).toNat, by omega⟩
    have moved := rescaled point apart
    have two : (2 : ℚ) ≤ 2 ^ (distance + 1) := by
      calc (2 : ℚ) = 2 ^ 1 := by norm_num
        _ ≤ 2 ^ (distance + 1) := pow_le_pow_right₀ (by norm_num) (by omega)
    have large : point / 2 ^ scale * 2 ≤ point / 2 ^ exponent := by
      rw [moved]
      exact mul_le_mul_of_nonneg_left two (by linarith)
    linarith

/-- A mantissa that fills its bits, with an accuracy that says where the point lies, is rounded to the
double that the point rounds to. -/
theorem RoundsTo.round_accuracy (near : RoundsTo point mantissa exponent) (parts : Canonical mantissa exponent)
    (sign : Sign) {start : Nat} {base : Int} {accuracy : Accuracy}
    (placed : Extends (point / 2 ^ base) (.ofMantissaAndAccuracy start accuracy))
    (least : -1074 ≤ base) (full : base = -1074 ∨ 2 ^ 52 ≤ start) (positive : 0 < mantissa) :
    UnpackedFloat.roundWithAccuracy Format.binary64 sign start base accuracy =
      .finite sign mantissa exponent positive := by
  have shifted := placed.shift (surplus start)
  have moved : point / 2 ^ base / 2 ^ surplus start = point / 2 ^ (base + surplus start) := by
    rw [zpow_add₀ (by decide), zpow_natCast, div_div]
  rw [moved] at shifted
  obtain ⟨above, below⟩ := shifted.bounds
  rw [shift_mantissa, extended_mantissa] at above below
  have filled : base + surplus start = -1074 ∨ 2 ^ 52 ≤ start / 2 ^ surplus start := by
    by_cases long : 2 ^ 52 ≤ start
    · exact .inr (kept_full long)
    · rw [surplus_of_short (by omega)]
      exact .inl (by simpa using full.resolve_right long)
  have cases := near.scale_cases parts shifted.nearest above below (kept_lt start) (by omega) filled
  unfold UnpackedFloat.roundWithAccuracy UnpackedFloat.shiftToTargetExponent
    UnpackedFloat.shiftToExponent
  simp only [surplus_amount start least]
  simp only [surplus_amount _ (by omega : -1074 ≤ base + (surplus start : Int)), shift_mantissa,
    extended_mantissa]
  rcases cases with ⟨rfl, same⟩ | ⟨rfl, same, rfl⟩
  · have short := surplus_of_short parts.small
    simp only [same, short, Nat.pow_zero, Nat.div_one, Int.natCast_zero, Int.add_zero]
    exact dif_neg (Nat.ne_of_gt positive)
  · have carry : surplus (2 ^ 53) = 1 := surplus_of_carry (Nat.le_refl _) (by decide)
    simp only [same, carry]
    exact dif_neg (by decide)

end PolicyLevers.Decimal
