import PolicyLevers.Ledger.Total
import PolicyLevers.Proofs.UniformWidths

/-!
# Numbers that change nothing

Adding or taking away a zero and multiplying or dividing by one leave a double as it is, infinities and no numbers
included, except that a zero may lose its sign in a sum.  So a sum in which zeros are left out is the same number,
unless both sums are zeros.
-/

namespace PolicyLevers.Decimal

set_option autoImplicit false

open Float.Model (Format UnpackedFloat totalExponent)
open Float.Model.UnpackedFloat (Sign)

/-! ## Doubles and their parts -/

theorem infinite_cases {value : Float} (infinite : value.isFinite = false) :
    value = .ofModel (.pack .notANumber) ∨ ∃ sign, value = .ofModel (.pack (.infinity sign)) := by
  obtain ⟨sign, exponent, fraction, bits⟩ := bits_cases value.toModel.toBits.toBitVec
  have unpacked : (UnpackedFloat.unpack Format.binary64
      (UnpackedFloat.packComponents Format.binary64 sign exponent fraction)).isFinite = false := by
    rw [← bits]
    exact infinite
  by_cases above : exponent = -1#11
  · subst above
    by_cases empty : fraction = 0#52
    · subst empty
      exact .inr ⟨sign, eq_pack bits⟩
    · -- of the patterns that are no number only one is admitted
      refine .inl (eq_pack (value.toModel.valid.eq_packedNaN ?_ ?_))
      · rw [bits]
        exact UnpackedFloat.unpackExponent_packComponents
      · rw [bits]
        exact fun zero => empty (UnpackedFloat.unpackMantissa_packComponents.symm.trans zero)
  · unfold UnpackedFloat.unpack at unpacked
    simp only [UnpackedFloat.unpackExponent_packComponents, above, if_false] at unpacked
    split at unpacked
    · split at unpacked <;> cases unpacked
    · cases unpacked

theorem packed_unpacked (value : Float) : .ofModel (.pack value.toModel.unpack) = value := by
  cases finite : value.isFinite with
  | true =>
      rcases finite_cases finite with ⟨sign, rfl⟩ | ⟨sign, mantissa, exponent, positive, parts, rfl⟩
      · exact congrArg (fun parts => Float.ofModel (.pack parts)) (unpack_zero sign)
      · exact congrArg (fun parts => Float.ofModel (.pack parts)) (unpack_pack parts sign positive)
  | false =>
      rcases infinite_cases finite with rfl | ⟨sign, rfl⟩
      · rfl
      · cases sign <;> rfl

/-! ## Zeros -/

/-- Only the two zeros equal zero. -/
theorem zero_parts {value : Float} (zero : (value == 0.0) = true) :
    ∃ sign, value.toModel.unpack = .zero sign := by
  change (UnpackedFloat.compare value.toModel.unpack (.zero .positive) == some .eq) = true at zero
  generalize value.toModel.unpack = parts at zero ⊢
  cases parts with
  | zero sign => exact ⟨sign, rfl⟩
  | finite sign mantissa exponent positive => cases sign <;> exact absurd zero Bool.false_ne_true
  | infinity sign => cases sign <;> exact absurd zero Bool.false_ne_true
  | notANumber => exact absurd zero Bool.false_ne_true

theorem zero_of_parts {value : Float} {sign : Sign} (parts : value.toModel.unpack = .zero sign) :
    (value == 0.0) = true := by
  change (UnpackedFloat.compare value.toModel.unpack (.zero .positive) == some .eq) = true
  rw [parts]
  rfl

theorem visible_parts {value : Float} (visible : (value == 0.0) = false) (sign : Sign) :
    value.toModel.unpack ≠ .zero sign := by
  intro unpacked
  rw [zero_of_parts unpacked] at visible
  cases visible

theorem negative_zero_parts : (-0.0 : Float).toModel.unpack = .zero .negative := by
  rfl

theorem add_zeros {first second : Float} (zero : (first == 0.0) = true) (also : (second == 0.0) = true) :
    (first + second == 0.0) = true := by
  obtain ⟨sign, parts⟩ := zero_parts zero
  obtain ⟨other, others⟩ := zero_parts also
  rw [sum_of_parts, parts, others]
  cases sign <;> cases other <;> rfl

/-- A zero in front of a number other than zero adds nothing. -/
theorem zero_add_number {zero value : Float} (empty : (zero == 0.0) = true)
    (visible : (value == 0.0) = false) : zero + value = value := by
  obtain ⟨sign, parts⟩ := zero_parts empty
  have alone : UnpackedFloat.add Format.binary64 (.zero sign) value.toModel.unpack =
      value.toModel.unpack := by
    cases unpacked : value.toModel.unpack with
    | zero other => exact absurd unpacked (visible_parts visible other)
    | _ => rfl
  rw [sum_of_parts, parts, alone, packed_unpacked]

theorem number_add_zero {zero value : Float} (empty : (zero == 0.0) = true)
    (visible : (value == 0.0) = false) : value + zero = value := by
  obtain ⟨sign, parts⟩ := zero_parts empty
  have alone : UnpackedFloat.add Format.binary64 value.toModel.unpack (.zero sign) =
      value.toModel.unpack := by
    cases unpacked : value.toModel.unpack with
    | zero other => exact absurd unpacked (visible_parts visible other)
    | _ => rfl
  rw [sum_of_parts, parts, alone, packed_unpacked]

theorem negative_zero_add (value : Float) : -0.0 + value = value := by
  have alone : UnpackedFloat.add Format.binary64 (.zero .negative) value.toModel.unpack =
      value.toModel.unpack := by
    cases value.toModel.unpack with
    | zero sign => cases sign <;> rfl
    | _ => rfl
  rw [sum_of_parts, negative_zero_parts, alone, packed_unpacked]

theorem number_sub_zero {zero value : Float} (empty : (zero == 0.0) = true)
    (visible : (value == 0.0) = false) : value - zero = value := by
  obtain ⟨sign, parts⟩ := zero_parts empty
  have alone : UnpackedFloat.sub Format.binary64 value.toModel.unpack (.zero sign) =
      value.toModel.unpack := by
    cases unpacked : value.toModel.unpack with
    | zero other => exact absurd unpacked (visible_parts visible other)
    | _ => rfl
  rw [difference_of_parts, parts, alone, packed_unpacked]

theorem sub_zeros {first second : Float} (zero : (first == 0.0) = true) (also : (second == 0.0) = true) :
    (first - second == 0.0) = true := by
  obtain ⟨sign, parts⟩ := zero_parts zero
  obtain ⟨other, others⟩ := zero_parts also
  rw [difference_of_parts, parts, others]
  cases sign <;> cases other <;> rfl

theorem subtracted_from_itself {value : Float} (finite : value.isFinite = true) : value - value = 0.0 := by
  rw [difference_of_parts]
  rcases finite_parts finite with ⟨sign, unpacked⟩ |
    ⟨sign, mantissa, exponent, positive, parts, unpacked⟩
  · rw [unpacked]
    cases sign <;> rfl
  · rw [unpacked]
    have nothing : UnpackedFloat.sub Format.binary64 (.finite sign mantissa exponent positive)
        (.finite sign mantissa exponent positive) = .zero .positive := by
      unfold UnpackedFloat.sub UnpackedFloat.normalize
      dsimp only
      rw [Int.sub_self]
      rfl
    rw [nothing]
    rfl

theorem zero_times {zero value : Float} (empty : (zero == 0.0) = true) (finite : value.isFinite = true) :
    (zero * value == 0.0) = true := by
  obtain ⟨sign, parts⟩ := zero_parts empty
  have nothing : ∃ result, UnpackedFloat.mul Format.binary64 (.zero sign) value.toModel.unpack =
      .zero result := by
    rcases finite_parts finite with ⟨other, unpacked⟩ | ⟨other, _, _, _, _, unpacked⟩ <;> rw [unpacked] <;>
      exact ⟨sign * other, rfl⟩
  obtain ⟨result, nothing⟩ := nothing
  rw [product_of_parts, parts, nothing]
  cases result <;> rfl

/-! ## One -/

theorem one_parts : (1.0 : Float).toModel.unpack = .finite .positive (2 ^ 52) (-52) (by decide) := by
  rfl

theorem sign_times_positive (sign : Sign) : sign * .positive = sign := by
  cases sign <;> rfl

theorem sign_over_positive (sign : Sign) : sign / .positive = sign := by
  cases sign <;> rfl

theorem times_one (value : Float) : value * 1.0 = value := by
  have alone : UnpackedFloat.mul Format.binary64 value.toModel.unpack
      (.finite .positive (2 ^ 52) (-52) (by decide)) = value.toModel.unpack := by
    cases finite : value.isFinite with
    | true =>
        rcases finite_parts finite with ⟨sign, unpacked⟩ |
          ⟨sign, mantissa, exponent, positive, parts, unpacked⟩
        · rw [unpacked]
          cases sign <;> rfl
        · rw [unpacked]
          exact (congrArg (fun sign => UnpackedFloat.roundWithAccuracy Format.binary64 sign
            (mantissa * 2 ^ 52) (exponent - (52 : Nat)) .exact) (sign_times_positive sign)).trans
            (round_exact parts sign 52 positive)
    | false =>
        rcases infinite_cases finite with rfl | ⟨sign, rfl⟩
        · rfl
        · cases sign <;> rfl
  rw [product_of_parts, one_parts, alone, packed_unpacked]

/-- Dividing by one brings a mantissa to one exponent less at most. -/
theorem divided_by_one {mantissa : Nat} {exponent : Int} (parts : Canonical mantissa exponent) :
    ∃ amount : Nat, UnpackedFloat.divCore Format.binary64 mantissa exponent (2 ^ 52) (-52) =
      (mantissa * 2 ^ amount, exponent - amount, .exact) := by
  have one : totalExponent (2 ^ 52) (-52) = 1 := by rfl
  have target := parts.target
  rw [target_exponent] at target
  have lowest : min (exponent - -52) (Format.binary64.targetExponent (totalExponent mantissa exponent - 1)) =
      exponent ∨ min (exponent - -52)
        (Format.binary64.targetExponent (totalExponent mantissa exponent - 1)) = exponent - 1 := by
    rw [target_exponent]
    omega
  have core (amount : Nat) (reached : min (exponent - -52)
      (Format.binary64.targetExponent (totalExponent mantissa exponent - 1)) = exponent - amount) :
      UnpackedFloat.divCore Format.binary64 mantissa exponent (2 ^ 52) (-52) =
        (mantissa * 2 ^ amount, exponent - amount, .exact) := by
    have distance : (exponent - -52 - (exponent - amount)).toNat = amount + 52 := by omega
    have whole : mantissa <<< (amount + 52) = mantissa * 2 ^ amount * 2 ^ 52 := by
      rw [Nat.shiftLeft_eq, Nat.pow_add, Nat.mul_assoc]
    unfold UnpackedFloat.divCore
    rw [one, reached]
    dsimp only
    rw [distance, whole, Nat.mul_div_cancel _ (by decide), Nat.mul_mod_left]
    rfl
  rcases lowest with same | less
  · exact ⟨0, core 0 (by omega)⟩
  · exact ⟨1, core 1 (by omega)⟩

theorem over_one (value : Float) : value / 1.0 = value := by
  have alone : UnpackedFloat.div Format.binary64 value.toModel.unpack
      (.finite .positive (2 ^ 52) (-52) (by decide)) = value.toModel.unpack := by
    cases finite : value.isFinite with
    | true =>
        rcases finite_parts finite with ⟨sign, unpacked⟩ |
          ⟨sign, mantissa, exponent, positive, parts, unpacked⟩
        · rw [unpacked]
          cases sign <;> rfl
        · rw [unpacked]
          unfold UnpackedFloat.div
          dsimp only
          obtain ⟨amount, divided⟩ := divided_by_one parts
          rw [divided]
          dsimp only
          rw [sign_over_positive, round_exact parts]
    | false =>
        rcases infinite_cases finite with rfl | ⟨sign, rfl⟩
        · rfl
        · cases sign <;> rfl
  rw [quotient_of_parts, one_parts, alone, packed_unpacked]

/-! ## Sums -/

/-- The same number, or both zeros. -/
def AlikeButZeros (first second : Float) : Prop :=
  first = second ∨ (first == 0.0) = true ∧ (second == 0.0) = true

theorem AlikeButZeros.add {first second : Float} (alike : AlikeButZeros first second) (value : Float) :
    AlikeButZeros (first + value) (second + value) := by
  rcases alike with rfl | ⟨zero, also⟩
  · exact .inl rfl
  · cases visible : value == 0.0 with
    | true => exact .inr ⟨add_zeros zero visible, add_zeros also visible⟩
    | false => exact .inl ((zero_add_number zero visible).trans (zero_add_number also visible).symm)

theorem AlikeButZeros.add_zero {first second zero : Float} (alike : AlikeButZeros first second)
    (empty : (zero == 0.0) = true) : AlikeButZeros first (second + zero) := by
  cases visible : second == 0.0 with
  | true =>
      rcases alike with rfl | ⟨also, _⟩
      · exact .inr ⟨visible, add_zeros visible empty⟩
      · exact .inr ⟨also, add_zeros visible empty⟩
  | false =>
      rw [number_add_zero empty visible]
      exact alike

/-- Missing values may be counted as zeros. -/
theorem total_with_zeros (values : List (Option Float)) :
    AlikeButZeros (total (values.filterMap id)) (total (values.map (fun value => value.getD 0.0))) := by
  have summed (first second : Float) (alike : AlikeButZeros first second) :
      AlikeButZeros ((values.filterMap id).foldl (· + ·) first)
        ((values.map (fun value => value.getD 0.0)).foldl (· + ·) second) := by
    induction values generalizing first second with
    | nil => exact alike
    | cons value rest induction =>
        cases value with
        | none => exact induction _ _ (alike.add_zero rfl)
        | some value => exact induction _ _ (alike.add value)
  exact summed _ _ (.inl rfl)

end PolicyLevers.Decimal
