import PolicyLevers.Decimal.Layout
import PolicyLevers.Proofs.CorrectReading
import PolicyLevers.Proofs.ScannedNumbers
import PolicyLevers.Proofs.ScriptPrinting
import PolicyLevers.Proofs.ShortestDigits

/-!
# Rendered numbers are read back

In documents the digits of a double are written with a point, or with a point and a power of ten.  In
either form they are a numeral whose value is the chosen decimal, so reading it gives the double back,
with its sign.
-/

namespace PolicyLevers.Decimal

set_option autoImplicit false

open Float.Model (Format UnpackedFloat)
open Float.Model.UnpackedFloat (Sign)

/-! ## Digits -/

theorem digits_value (value : Nat) : digitsValue (Nat.toDigits 10 value) = value :=
  Nat.ofDigitChars_ten_toDigits

theorem digits_all (value : Nat) : (Nat.toDigits 10 value).all Char.isDigit = true :=
  List.all_eq_true.mpr (fun _ => Nat.isDigit_of_mem_toDigits (by decide) (by decide))

theorem value_append (front back : List Char) :
    digitsValue (front ++ back) = 10 ^ back.length * digitsValue front + digitsValue back := by
  exact (Nat.ofDigitChars_append 0).trans Nat.ofDigitChars_eq_ofDigitChars_zero

theorem value_zeros (count : Nat) : digitsValue (List.replicate count '0') = 0 := by
  exact Nat.ofDigitChars_replicate_zero.trans (Nat.mul_zero _)

theorem zeros_all (count : Nat) : (List.replicate count '0').all Char.isDigit = true := by
  simp [List.all_replicate]

theorem digits_leading {digits : Nat} (visible : 0 < digits) :
    ∃ first others, Nat.toDigits 10 digits = first :: others ∧ first ≠ '0' := by
  induction digits using Nat.strongRecOn with
  | ind digits ih =>
      by_cases short : digits < 10
      · refine ⟨digits.digitChar, [], Nat.toDigits_of_lt_base short, ?_⟩
        interval_cases digits <;> decide
      · obtain ⟨first, others, front, nonzero⟩ := ih (digits / 10) (by omega) (by omega)
        refine ⟨first, others ++ [(digits % 10).digitChar], ?_, nonzero⟩
        rw [Nat.toDigits_of_base_le (by decide) (by omega), front]
        rfl

/-! ## Signs -/

theorem neg_finite {mantissa : Nat} {exponent : Int} (parts : Canonical mantissa exponent)
    (positive : 0 < mantissa) :
    -Float.ofModel (.pack (.finite .positive mantissa exponent positive)) =
      .ofModel (.pack (.finite .negative mantissa exponent positive)) := by
  change Float.ofModel (.pack (UnpackedFloat.neg (Float.Model.unpack _))) = _
  rw [unpack_pack parts]
  rfl

theorem split_sign_digit {c : Char} (digit : c.isDigit = true) (text : List Char) :
    splitSign (c :: text) = (false, c :: text) := by
  unfold splitSign
  split
  · rename_i same
    obtain ⟨rfl, -⟩ := List.cons.inj same
    cases digit
  · rename_i same
    obtain ⟨rfl, -⟩ := List.cons.inj same
    cases digit
  · rfl

def signed (sign : Sign) (text : List Char) : List Char :=
  match sign with
  | .positive => text
  | .negative => '-' :: text

theorem read_signed {c : Char} (digit : c.isDigit = true) {text : List Char} {magnitude : Magnitude}
    (read : readMagnitude (c :: text) = some magnitude) {mantissa : Nat} {exponent : Int}
    (parts : Canonical mantissa exponent) {positive : 0 < mantissa}
    (near : magnitude.toFloat = .ofModel (.pack (.finite .positive mantissa exponent positive)))
    (sign : Sign) :
    readFloat (signed sign (c :: text)) =
      some (.ofModel (.pack (.finite sign mantissa exponent positive))) := by
  have unsigned := read_unsigned_digit digit text
  rw [read, Option.map_some, near] at unsigned
  unfold readFloat
  cases sign with
  | positive =>
      unfold signed
      dsimp only
      rw [split_sign_digit digit, unsigned]
      rfl
  | negative =>
      have minus : splitSign (signed .negative (c :: text)) = (true, c :: text) := rfl
      rw [minus]
      dsimp only
      rw [unsigned]
      exact congrArg some (neg_finite parts positive)

/-! ## Numerals -/

/-- A number as it is written: digits before the point, digits after it and a power of ten, if it has
them. -/
structure Numeral where
  whole : List Char
  fraction : List Char
  power : Option Int

namespace Numeral

def fractionText : List Char → List Char
  | [] => []
  | digits => '.' :: digits

def powerText : Option Int → List Char
  | none => []
  | some power => 'e' :: (if power < 0 then '-' else '+') :: Nat.toDigits 10 power.natAbs

def text (numeral : Numeral) : List Char :=
  numeral.whole ++ (fractionText numeral.fraction ++ powerText numeral.power)

def magnitude (numeral : Numeral) : Magnitude :=
  ⟨numeral.whole, numeral.fraction, numeral.power.getD 0⟩

def value (numeral : Numeral) : ℚ :=
  digitsValue (numeral.whole ++ numeral.fraction) *
    10 ^ (numeral.power.getD 0 - numeral.fraction.length)

/-- The digits are digits, and those before the point start with no zero unless it is the only one. -/
structure WellFormed (numeral : Numeral) : Prop where
  whole : numeral.whole.all Char.isDigit = true
  leading : numeral.whole = ['0'] ∨ ∃ first others, numeral.whole = first :: others ∧ first ≠ '0'
  fraction : numeral.fraction.all Char.isDigit = true

variable {numeral : Numeral}

theorem WellFormed.starts_with_digit (formed : numeral.WellFormed) :
    ∃ first others, numeral.text = first :: others ∧ first.isDigit = true := by
  have digits := formed.whole
  unfold text
  rcases formed.leading with zero | ⟨first, others, whole, -⟩
  · rw [zero]
    exact ⟨'0', _, rfl, rfl⟩
  · rw [whole] at digits ⊢
    exact ⟨first, _, rfl, (Bool.and_eq_true_iff.mp digits).1⟩

theorem power_no_digit (power : Option Int) : NoDigit (powerText power) := by
  cases power with
  | none => exact no_digit_nil
  | some power => exact no_digit_cons rfl _

theorem read_power (power : Option Int) : readExponent (powerText power) = some (power.getD 0) := by
  cases power with
  | none => rfl
  | some power =>
      have digits := digits_all power.natAbs
      have number := digits_value power.natAbs
      have visible : (Nat.toDigits 10 power.natAbs).isEmpty = false :=
        List.isEmpty_eq_false_iff.mpr Nat.toDigits_ne_nil
      rw [powerText]
      by_cases below : power < 0
      · have size : -(power.natAbs : Int) = power := by omega
        rw [if_pos below]
        simp only [readExponent, splitSign, digits, visible, number, size]
        rfl
      · have size : (power.natAbs : Int) = power := by omega
        rw [if_neg below]
        simp only [readExponent, splitSign, digits, visible, number, size]
        rfl

/-- A numeral is read as its parts. -/
theorem WellFormed.read_magnitude (formed : numeral.WellFormed) :
    readMagnitude numeral.text = some numeral.magnitude := by
  have visible : numeral.whole.isEmpty = false := by
    rcases formed.leading with zero | ⟨first, others, whole, -⟩
    · rw [zero]; rfl
    · rw [whole]; rfl
  unfold text readMagnitude
  dsimp only
  cases fraction : numeral.fraction with
  | nil =>
      obtain ⟨taken, dropped⟩ := split_digits formed.whole (power_no_digit numeral.power)
      rw [fractionText, List.nil_append, taken, dropped]
      split
      · rename_i same
        cases power : numeral.power <;> rw [power] at same <;> cases same
      · dsimp only
        rw [visible, read_power]
        simp [magnitude, fraction]
  | cons first others =>
      have digits := formed.fraction
      rw [fraction] at digits
      have stops : NoDigit (fractionText (first :: others) ++ powerText numeral.power) :=
        no_digit_cons rfl _
      obtain ⟨taken, dropped⟩ := split_digits formed.whole stops
      obtain ⟨places, after⟩ := split_digits digits (power_no_digit numeral.power)
      rw [taken, dropped, fractionText, List.cons_append]
      simp only
      rw [places, after, visible, read_power]
      simp [magnitude, fraction]
      nofun

end Numeral

/-! ## The two forms of a number in a document -/

section Forms

variable {first : Char} {others : List Char} (digits : (first :: others).all Char.isDigit = true)
  (nonzero : first ≠ '0')

/-- All digits stand after the point. -/
def Numeral.small (digits : List Char) (zeros : Nat) : Numeral :=
  ⟨['0'], List.replicate zeros '0' ++ digits, none⟩

/-- The digits stand on both sides of the point. -/
def Numeral.mixed (digits : List Char) (position : Nat) : Numeral :=
  ⟨digits.take position, digits.drop position, none⟩

/-- All digits stand before the point. -/
def Numeral.large (digits : List Char) (zeros : Nat) : Numeral :=
  ⟨digits ++ List.replicate zeros '0', ['0'], none⟩

/-- One digit stands before the point, and a power of ten follows the others. -/
def Numeral.scaled (digits : List Char) (power : Int) : Numeral :=
  ⟨digits.take 1, digits.drop 1, some power⟩

include digits

theorem small_formed (zeros : Nat) : (Numeral.small (first :: others) zeros).WellFormed := by
  refine ⟨rfl, .inl rfl, ?_⟩
  change (List.replicate zeros '0' ++ first :: others).all Char.isDigit = true
  rw [List.all_append, zeros_all, digits]
  rfl

include nonzero

theorem mixed_formed {position : Nat} (inside : 0 < position) :
    (Numeral.mixed (first :: others) position).WellFormed := by
  obtain ⟨before, rfl⟩ : ∃ before, position = before + 1 := ⟨position - 1, by omega⟩
  rw [← List.take_append_drop (before + 1) (first :: others), List.all_append, Bool.and_eq_true] at digits
  exact ⟨digits.1, .inr ⟨first, others.take before, rfl, nonzero⟩, digits.2⟩

theorem large_formed (zeros : Nat) : (Numeral.large (first :: others) zeros).WellFormed := by
  refine ⟨?_, .inr ⟨first, others ++ List.replicate zeros '0', rfl, nonzero⟩, rfl⟩
  change (first :: others ++ List.replicate zeros '0').all Char.isDigit = true
  rw [List.all_append, zeros_all, digits]
  rfl

theorem scaled_formed (power : Int) : (Numeral.scaled (first :: others) power).WellFormed := by
  rw [List.all_cons, Bool.and_eq_true] at digits
  refine ⟨?_, .inr ⟨first, [], rfl, nonzero⟩, digits.2⟩
  change [first].all Char.isDigit = true
  rw [List.all_cons, digits.1]
  rfl

/-- Digits with a point are a numeral for their value at the place of the point. -/
theorem placed_point (position : Int) : ∃ numeral : Numeral, numeral.WellFormed ∧
    placePoint (first :: others) position ".0" = numeral.text ∧
    numeral.value =
      digitsValue (first :: others) * 10 ^ (position - ((first :: others).length : Int)) := by
  unfold placePoint
  by_cases before : position ≤ 0
  · refine ⟨.small (first :: others) position.natAbs, small_formed digits _, ?_, ?_⟩
    · rw [if_pos before]
      cases position.natAbs <;> simp [Numeral.text, Numeral.small, Numeral.fractionText,
        Numeral.powerText, List.replicate_succ]
    · have number : digitsValue (['0'] ++ (List.replicate position.natAbs '0' ++ first :: others)) =
          digitsValue (first :: others) := by
        rw [value_append, value_append, value_zeros, Nat.mul_zero, Nat.zero_add]
        exact Nat.zero_add _
      unfold Numeral.value Numeral.small
      dsimp only
      rw [number, List.length_append, List.length_replicate]
      congr 2
      simp only [Option.getD_none]
      omega
  · rw [if_neg before]
    by_cases inside : position < ((first :: others).length : Int)
    · refine ⟨.mixed (first :: others) position.natAbs, mixed_formed digits nonzero (by omega), ?_, ?_⟩
      · rw [if_pos inside]
        have more : (first :: others).drop position.natAbs ≠ [] := by
          rw [ne_eq, List.drop_eq_nil_iff]
          omega
        cases rest : (first :: others).drop position.natAbs with
        | nil => exact absurd rest more
        | cons next last =>
            simp [Numeral.text, Numeral.mixed, Numeral.fractionText, Numeral.powerText, rest]
      · unfold Numeral.value Numeral.mixed
        dsimp only
        rw [List.take_append_drop, List.length_drop]
        congr 2
        simp only [Option.getD_none]
        omega
    · obtain ⟨zeros, filled⟩ : ∃ zeros : Nat, position = (first :: others).length + (zeros : Int) :=
        ⟨(position - (first :: others).length).toNat, by omega⟩
      have count : position.natAbs - (first :: others).length = zeros := by omega
      refine ⟨.large (first :: others) zeros, large_formed digits nonzero _, ?_, ?_⟩
      · rw [if_neg inside, count]
        simp [Numeral.text, Numeral.large, Numeral.fractionText, Numeral.powerText]
      · have number : digitsValue (first :: others ++ List.replicate zeros '0' ++ ['0']) =
            10 * (10 ^ zeros * digitsValue (first :: others)) := by
          rw [value_append, value_append, value_zeros, List.length_replicate]
          rfl
        unfold Numeral.value Numeral.large
        dsimp only
        rw [number, filled]
        push_cast
        rw [add_sub_cancel_left, zpow_natCast]
        norm_num
        ring

omit nonzero in
theorem placed_exponent (power : Int) :
    placeExponent (first :: others) power "+" = (Numeral.scaled (first :: others) power).text ∧
      (Numeral.scaled (first :: others) power).value =
        digitsValue (first :: others) * 10 ^ (power - (others.length : Int)) := by
  constructor
  · unfold placeExponent Numeral.text Numeral.scaled
    cases others <;> by_cases below : power < 0 <;>
      simp [below, Numeral.fractionText, Numeral.powerText]
  · rfl

end Forms

theorem document_layout {dec : Dec} (visible : 0 < dec.digits) {exponent : Int}
    (leading : exponent = dec.exponent + (Nat.toDigits 10 dec.digits).length - 1) :
    ∃ numeral : Numeral, numeral.WellFormed ∧ numeral.value = dec.value ∧
      (if document.positional exponent then
        placePoint (Nat.toDigits 10 dec.digits) (exponent + 1) document.wholeEnd
      else placeExponent (Nat.toDigits 10 dec.digits) exponent document.exponentSign) = numeral.text := by
  obtain ⟨first, others, chosen, nonzero⟩ := digits_leading visible
  have digits := digits_all dec.digits
  have number := digits_value dec.digits
  rw [chosen] at leading digits number ⊢
  unfold Dec.value
  rw [← number]
  by_cases positional : document.positional exponent = true
  · obtain ⟨numeral, formed, text, value⟩ := placed_point digits nonzero (exponent + 1)
    refine ⟨numeral, formed, ?_, ?_⟩
    · rw [value]
      congr 2
      omega
    · rw [if_pos positional]
      exact text
  · obtain ⟨text, value⟩ := placed_exponent digits exponent
    refine ⟨_, scaled_formed digits nonzero exponent, ?_, ?_⟩
    · rw [value]
      congr 2
      rw [List.length_cons] at leading
      omega
    · rw [if_neg positional]
      exact text

theorem RoundsTo.positive {point : ℚ} {mantissa : Nat} {exponent : Int}
    (near : RoundsTo point mantissa exponent) (parts : Canonical mantissa exponent) : 0 < point :=
  lt_trans (zpow_pos (by norm_num) _) (near.lt_point parts)

/-- A double other than zero is written as a numeral that is read as it. -/
theorem canonical_numeral {mantissa : Nat} {exponent : Int} (parts : Canonical mantissa exponent)
    (sign : Sign) (positive : 0 < mantissa) : ∃ numeral : Numeral, numeral.WellFormed ∧
      document.magnitude (.ofModel (.pack (.finite sign mantissa exponent positive))) = numeral.text ∧
      numeral.magnitude.toFloat = .ofModel (.pack (.finite .positive mantissa exponent positive)) := by
  have rounds := parts.shortest_rounds .even
  have dec : 0 < ((Binary.ofParts mantissa exponent).shortest .even).digits := by
    have above := rounds.positive parts
    unfold Dec.value at above
    by_contra zero
    rw [Nat.eq_zero_of_not_pos zero] at above
    norm_num at above
  obtain ⟨numeral, formed, value, text⟩ := document_layout dec rfl
  refine ⟨numeral, formed, ?_, ?_⟩
  · unfold Layout.magnitude
    rw [(parts.packed sign positive).2]
    dsimp only
    rw [if_neg (show ¬(Binary.ofParts mantissa exponent).mantissa = 0 from Nat.ne_of_gt positive)]
    exact text
  · rw [← value] at rounds
    have above := rounds.positive parts
    refine RoundsTo.nearest_decimal rounds parts positive ?_
    by_contra zero
    unfold Numeral.value at above
    rw [Nat.eq_zero_of_not_pos zero] at above
    norm_num at above

theorem rendered_number {value : Float} (finite : value.isFinite = true) :
    ∃ (sign : Sign) (numeral : Numeral), numeral.WellFormed ∧
      (document.render value).toList = signed sign numeral.text ∧
      readFloat (signed sign numeral.text) = some value := by
  rcases finite_cases finite with ⟨sign, rfl⟩ | ⟨sign, mantissa, exponent, positive, parts, rfl⟩
  · refine ⟨sign, ⟨['0'], ['0'], none⟩, ⟨rfl, .inl rfl, rfl⟩, ?_⟩
    cases sign <;> decide +kernel
  · obtain ⟨numeral, formed, text, near⟩ := canonical_numeral parts sign positive
    refine ⟨sign, numeral, formed, ?_, ?_⟩
    · have number : (Float.ofModel (.pack (.finite sign mantissa exponent positive))).isNaN = false := by
        change (Float.Model.pack _).unpack.isNaN = false
        rw [unpack_pack parts]
        rfl
      have bounded : (Float.ofModel (.pack (.finite sign mantissa exponent positive))).isInf = false := by
        change (Float.Model.pack _).unpack.isInf = false
        rw [unpack_pack parts]
        rfl
      unfold Layout.render
      rw [number, bounded, (parts.packed sign positive).1, text]
      cases sign <;> simp [isMinus, signed]
    · obtain ⟨first, others, same, digit⟩ := formed.starts_with_digit
      have read := formed.read_magnitude
      rw [same] at read ⊢
      exact read_signed digit read parts near sign

/-- Every double that is a number has a decimal literal. -/
theorem finite_has_literal {value : Float} (finite : value.isFinite = true) :
    ∃ text, Script.IsLiteral text value := by
  obtain ⟨sign, numeral, formed, -, read⟩ := rendered_number finite
  obtain ⟨first, others, same, digit⟩ := formed.starts_with_digit
  have magnitude := formed.read_magnitude
  refine ⟨String.ofList (signed sign numeral.text), ?_⟩
  unfold Script.IsLiteral
  rw [String.toList_ofList]
  refine ⟨?_, read⟩
  rw [same] at magnitude ⊢
  cases sign with
  | positive => rw [signed, split_sign_digit digit, magnitude]; rfl
  | negative => rw [signed, splitSign, magnitude]; rfl

end PolicyLevers.Decimal
