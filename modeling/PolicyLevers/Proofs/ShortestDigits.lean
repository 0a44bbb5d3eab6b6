import PolicyLevers.Decimal.Shortest
import PolicyLevers.Proofs.CorrectRounding

/-!
# Chosen digits round to their double

The digits of a double are searched with comparisons of natural numbers.  As numbers these are the
comparisons with the ends of the interval that rounds to the double, so the chosen digits lie in it.
-/

namespace PolicyLevers.Decimal

set_option autoImplicit false

open Float.Model (Format UnpackedFloat totalExponent)
open Float.Model.UnpackedFloat (Sign)

/-! ## The parts of a packed double -/

def isMinus : Sign → Bool
  | .positive => false
  | .negative => true

section Bits

variable (sign : Sign) (exponent : BitVec 11) (fraction : BitVec 52)

def ofFields : UInt64 := .ofBitVec (UnpackedFloat.packComponents Format.binary64 sign exponent fraction)

theorem fields_value : (ofFields sign exponent fraction).toNat =
    (sign.toBitVec.toNat * 2 ^ 11 + exponent.toNat) * 2 ^ 52 + fraction.toNat := by
  change (sign.toBitVec ++ exponent ++ fraction).toNat = _
  rw [BitVec.toNat_append, BitVec.toNat_append, ← Nat.shiftLeft_add_eq_or_of_lt fraction.isLt,
    ← Nat.shiftLeft_add_eq_or_of_lt exponent.isLt, Nat.shiftLeft_eq, Nat.shiftLeft_eq]

theorem fields_exponent :
    ((ofFields sign exponent fraction >>> 52) &&& 0x7FF).toNat = exponent.toNat := by
  have small := fraction.isLt
  have bound := exponent.isLt
  rw [UInt64.toNat_and, UInt64.toNat_shiftRight, fields_value]
  change (_ >>> 52) &&& (2 ^ 11 - 1) = _
  rw [Nat.and_two_pow_sub_one_eq_mod, Nat.shiftRight_eq_div_pow]
  omega

theorem fields_fraction :
    (ofFields sign exponent fraction &&& 0xFFFFFFFFFFFFF).toNat = fraction.toNat := by
  have small := fraction.isLt
  rw [UInt64.toNat_and, fields_value]
  change _ &&& (2 ^ 52 - 1) = _
  rw [Nat.and_two_pow_sub_one_eq_mod]
  omega

theorem fields_sign :
    (ofFields sign exponent fraction >>> 63 == 1) = isMinus sign := by
  have small := fraction.isLt
  have bound := exponent.isLt
  have top : (ofFields sign exponent fraction >>> 63).toNat = sign.toBitVec.toNat := by
    rw [UInt64.toNat_shiftRight, fields_value]
    change _ >>> 63 = _
    rw [Nat.shiftRight_eq_div_pow]
    omega
  cases sign with
  | positive =>
      have zero : ofFields .positive exponent fraction >>> 63 = 0 := UInt64.toNat_inj.mp top
      rw [zero]
      rfl
  | negative =>
      have one : ofFields .negative exponent fraction >>> 63 = 1 := UInt64.toNat_inj.mp top
      rw [one]
      rfl

end Bits

def Binary.ofParts (mantissa : Nat) (exponent : Int) : Binary :=
  ⟨mantissa, exponent, mantissa = 2 ^ 52 && decide (-1074 < exponent)⟩

theorem Canonical.packed {mantissa : Nat} {exponent : Int} (parts : Canonical mantissa exponent)
    (sign : Sign) (positive : 0 < mantissa) :
    isNegative (.ofModel (.pack (.finite sign mantissa exponent positive))) =
        isMinus sign ∧
      Binary.ofFloat (.ofModel (.pack (.finite sign mantissa exponent positive))) =
        .ofParts mantissa exponent := by
  rcases parts.fields with ⟨biased, fraction, below, above, rfl, rfl⟩ | ⟨fraction, visible, rfl, rfl⟩
  · have bits : (Float.ofModel (.pack (.finite sign (2 ^ 52 + fraction.toNat) (biased.toNat - 1075)
        positive))).toBits = ofFields sign biased fraction := by
      change UInt64.ofBitVec (UnpackedFloat.pack Format.binary64 _) = _
      rw [pack_normal sign above]
      rfl
    have nonzero : biased.toNat ≠ 0 := fun zero => below (BitVec.eq_of_toNat_eq zero)
    unfold isNegative Binary.ofFloat Binary.ofParts
    rw [bits]
    dsimp only
    rw [fields_exponent, fields_fraction, if_neg nonzero]
    refine ⟨fields_sign sign biased fraction, ?_⟩
    congr 1
    rw [Bool.eq_iff_iff]
    simp
    omega
  · have bits : (Float.ofModel (.pack (.finite sign fraction.toNat (-1074) positive))).toBits =
        ofFields sign 0#11 fraction := by
      change UInt64.ofBitVec (UnpackedFloat.pack Format.binary64 _) = _
      rw [pack_subnormal]
      rfl
    unfold isNegative Binary.ofFloat Binary.ofParts
    rw [bits]
    dsimp only
    rw [fields_exponent, fields_fraction, if_pos (by rfl)]
    refine ⟨fields_sign sign _ fraction, ?_⟩
    congr 1
    simp

/-! ## Ratios as numbers -/

namespace Ratio

def value (ratio : Ratio) : ℚ := ratio.numerator / ratio.denominator

def Proper (ratio : Ratio) : Prop := 0 < ratio.denominator

variable {left right ratio : Ratio}

theorem le_iff (leftProper : left.Proper) (rightProper : right.Proper) :
    left.le right = true ↔ left.value ≤ right.value := by
  have leftVisible : (0 : ℚ) < left.denominator := by exact_mod_cast leftProper
  have rightVisible : (0 : ℚ) < right.denominator := by exact_mod_cast rightProper
  unfold le value
  rw [decide_eq_true_iff, div_le_div_iff₀ leftVisible rightVisible]
  exact_mod_cast Iff.rfl

theorem lt_iff (leftProper : left.Proper) (rightProper : right.Proper) :
    left.lt right = true ↔ left.value < right.value := by
  have leftVisible : (0 : ℚ) < left.denominator := by exact_mod_cast leftProper
  have rightVisible : (0 : ℚ) < right.denominator := by exact_mod_cast rightProper
  unfold lt value
  rw [decide_eq_true_iff, div_lt_div_iff₀ leftVisible rightVisible]
  exact_mod_cast Iff.rfl

theorem scale_proper (proper : ratio.Proper) {base : Nat} (positive : 0 < base) (exponent : Int) :
    (ratio.scale base exponent).Proper := by
  unfold scale
  split
  · exact Nat.mul_pos proper (Nat.pow_pos positive)
  · exact proper

theorem scale_value (ratio : Ratio) (base : Nat) (exponent : Int) :
    (ratio.scale base exponent).value = ratio.value * (base : ℚ) ^ exponent := by
  unfold scale value
  split
  · rename_i below
    have inverse : (base : ℚ) ^ exponent = ((base : ℚ) ^ exponent.natAbs)⁻¹ := by
      rw [← zpow_natCast, ← zpow_neg]
      congr 1
      omega
    rw [inverse]
    push_cast [Nat.pow_eq]
    rw [← div_div, div_eq_mul_inv (_ / _)]
  · rename_i above
    have same : (base : ℚ) ^ exponent = (base : ℚ) ^ exponent.natAbs := by
      rw [← zpow_natCast]
      congr 1
      omega
    rw [same]
    push_cast [Nat.pow_eq]
    rw [mul_div_right_comm]

end Ratio

def Dec.value (dec : Dec) : ℚ := dec.digits * 10 ^ dec.exponent

theorem Dec.ratio_value (dec : Dec) : dec.toRatio.value = dec.value := by
  unfold Dec.toRatio Dec.value
  rw [Ratio.scale_value]
  simp [Ratio.value]

theorem Dec.ratio_proper (dec : Dec) : dec.toRatio.Proper := by
  have whole : (Ratio.mk dec.digits 1).Proper := Nat.one_pos
  exact Ratio.scale_proper whole (by decide) dec.exponent

/-! ## The interval of a double -/

/-- The lower end of the interval in steps of the double: half a step down, or a quarter. -/
def lowestStep (mantissa : Nat) (exponent : Int) : ℚ :=
  if mantissa = 2 ^ 52 ∧ -1074 < exponent then mantissa - 1 / 4 else mantissa - 1 / 2

theorem half_below (mantissa : Nat) (exponent : Int) :
    (mantissa - 1 / 2 : ℚ) ≤ lowestStep mantissa exponent := by
  unfold lowestStep
  split <;> linarith

theorem Binary.high_end (mantissa : Nat) (exponent : Int) :
    (Binary.ofParts mantissa exponent).high.Proper ∧
      (Binary.ofParts mantissa exponent).high.value = (mantissa + 1 / 2) * 2 ^ exponent := by
  have whole : (Ratio.mk (2 * mantissa + 1) 2).Proper := Nat.two_pos
  refine ⟨Ratio.scale_proper whole (by decide) exponent, ?_⟩
  unfold Binary.high Binary.ofParts
  rw [Ratio.scale_value, Ratio.value]
  push_cast
  ring

theorem Binary.low_end {mantissa : Nat} (positive : 0 < mantissa) (exponent : Int) :
    (Binary.ofParts mantissa exponent).low.Proper ∧
      (Binary.ofParts mantissa exponent).low.value = lowestStep mantissa exponent * 2 ^ exponent := by
  have quarters : (Ratio.mk (4 * mantissa - 1) 4).Proper := Nat.succ_pos 3
  have halves : (Ratio.mk (2 * mantissa - 1) 2).Proper := Nat.two_pos
  unfold Binary.low Binary.ofParts lowestStep
  dsimp only
  by_cases narrow : mantissa = 2 ^ 52 ∧ -1074 < exponent
  · rw [if_pos (by simpa using narrow), if_pos narrow]
    refine ⟨Ratio.scale_proper quarters (by decide) exponent, ?_⟩
    rw [Ratio.scale_value, Ratio.value]
    push_cast [show 1 ≤ 4 * mantissa by omega]
    ring
  · rw [if_neg (by simpa using narrow), if_neg narrow]
    refine ⟨Ratio.scale_proper halves (by decide) exponent, ?_⟩
    rw [Ratio.scale_value, Ratio.value]
    push_cast [show 1 ≤ 2 * mantissa by omega]
    ring

/-- A decimal that reads back rounds to the double. -/
theorem Canonical.reads_back {mantissa : Nat} {exponent : Int} (parts : Canonical mantissa exponent)
    {dec : Dec} (inside : (Binary.ofParts mantissa exponent).readsBack dec = true) :
    RoundsTo dec.value mantissa exponent := by
  have power : (0 : ℚ) < 2 ^ exponent := zpow_pos (by decide) _
  obtain ⟨lowProper, low⟩ := Binary.low_end parts.positive exponent
  obtain ⟨highProper, high⟩ := Binary.high_end mantissa exponent
  have within := dec.ratio_proper
  have bottom := half_below mantissa exponent
  unfold Binary.readsBack at inside
  by_cases even : mantissa % 2 = 0
  · rw [if_pos (by exact even), Bool.and_eq_true, Ratio.le_iff lowProper within,
      Ratio.le_iff within highProper, dec.ratio_value, low, high, ← le_div_iff₀ power,
      ← div_le_iff₀ power] at inside
    obtain ⟨above, below⟩ := inside
    refine ⟨⟨by linarith, below, fun odd => by omega⟩, fun least normal => ?_⟩
    rwa [lowestStep, if_pos ⟨least, normal⟩] at above
  · rw [if_neg (by exact even), Bool.and_eq_true, Ratio.lt_iff lowProper within,
      Ratio.lt_iff within highProper, dec.ratio_value, low, high, ← lt_div_iff₀ power,
      ← div_lt_iff₀ power] at inside
    obtain ⟨above, below⟩ := inside
    refine ⟨⟨by linarith, below.le, fun _ => ⟨by linarith, below⟩⟩, fun least _ => ?_⟩
    rw [least] at even
    exact absurd rfl even

theorem rounds_to_itself (mantissa : Nat) (exponent : Int) :
    RoundsTo (mantissa * 2 ^ exponent) mantissa exponent := by
  have power : (2 : ℚ) ^ exponent ≠ 0 := zpow_ne_zero _ (by decide)
  have same : (mantissa : ℚ) * 2 ^ exponent / 2 ^ exponent = mantissa := mul_div_cancel_right₀ _ power
  refine ⟨?_, ?_⟩
  · rw [same]
    exact ⟨by linarith, by linarith, fun _ => ⟨by linarith, by linarith⟩⟩
  · rw [same]
    intro _ _
    linarith

/-! ## The chosen digits -/

theorem Binary.on_grid_reads_back {parts : Binary} {tie : Tie} {exponent : Int} {dec : Dec}
    (found : parts.onGrid tie exponent = some dec) : parts.readsBack dec = true := by
  unfold Binary.onGrid at found
  dsimp only at found
  split at found
  · rename_i lower upper
    cases found
    split
    · exact lower
    · exact upper
  · rename_i lower _
    cases found
    exact lower
  · rename_i _ upper
    cases found
    exact upper
  · cases found

theorem Dec.strip_value (limit : Nat) (dec : Dec) : (dec.strip limit).value = dec.value := by
  induction limit generalizing dec with
  | zero => rfl
  | succ limit ih =>
      unfold Dec.strip
      split
      · rename_i divides
        rw [ih]
        unfold Dec.value
        have tenfold : dec.digits = dec.digits / 10 * 10 := by omega
        have cast : (dec.digits : ℚ) = (dec.digits / 10 : Nat) * 10 := by exact_mod_cast tenfold
        rw [cast, zpow_add₀ (by norm_num), zpow_one]
        ring
      · rfl

/-- The digits of a double round to it. -/
theorem Canonical.shortest_rounds {mantissa : Nat} {exponent : Int}
    (parts : Canonical mantissa exponent) (tie : Tie) :
    RoundsTo ((Binary.ofParts mantissa exponent).shortest tie).value mantissa exponent := by
  unfold Binary.shortest
  dsimp only
  split
  · rename_i dec found
    obtain ⟨count, -, grid⟩ := List.exists_of_findSome?_eq_some found
    rw [Dec.strip_value]
    exact parts.reads_back (Binary.on_grid_reads_back grid)
  · have itself := rounds_to_itself mantissa exponent
    split
    · rename_i below
      have same : (mantissa : ℚ) * 2 ^ exponent =
          Dec.value ⟨mantissa * Nat.pow 5 exponent.natAbs, exponent⟩ := by
        have inverse (base : ℚ) : base ^ exponent = (base ^ exponent.natAbs)⁻¹ := by
          rw [← zpow_natCast, ← zpow_neg]
          congr 1
          have negative : exponent < 0 := below
          omega
        unfold Dec.value
        rw [inverse, inverse, show (10 : ℚ) = 2 * 5 by norm_num, mul_pow, mul_inv]
        push_cast [Nat.pow_eq]
        have five : (5 : ℚ) ^ exponent.natAbs ≠ 0 := pow_ne_zero _ (by decide)
        field_simp
      rwa [same] at itself
    · rename_i above
      have same : (mantissa : ℚ) * 2 ^ exponent =
          Dec.value ⟨mantissa * Nat.pow 2 exponent.natAbs, 0⟩ := by
        have whole : (2 : ℚ) ^ exponent = 2 ^ exponent.natAbs := by
          rw [← zpow_natCast]
          congr 1
          have nonnegative : ¬exponent < 0 := above
          omega
        unfold Dec.value
        rw [whole, zpow_zero]
        push_cast [Nat.pow_eq]
        ring
      rwa [same] at itself

end PolicyLevers.Decimal
