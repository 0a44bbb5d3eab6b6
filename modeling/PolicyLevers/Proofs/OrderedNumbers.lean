import Mathlib.Data.Prod.Lex
import PolicyLevers.Proofs.NeutralNumbers

/-!
# Doubles in order

Comparing doubles is no linear order, for no number compares with itself and the two zeros are equal.  Among
numbers it is one otherwise: every number has a rank by its sign, its exponent and its mantissa, and numbers are
compared by their ranks.  Only zeros share a rank.
-/

namespace PolicyLevers.Decimal

set_option autoImplicit false

open Float.Model (Format UnpackedFloat)
open Float.Model.UnpackedFloat (Sign)

/-! ## Ranks -/

/-- Where a number stands among the others. -/
def rank : UnpackedFloat → Int ×ₗ Int ×ₗ Int
  | .infinity .negative => toLex (-2, toLex (0, 0))
  | .finite .negative mantissa exponent _ => toLex (-1, toLex (-exponent, -mantissa))
  | .finite .positive mantissa exponent _ => toLex (1, toLex (exponent, mantissa))
  | .infinity .positive => toLex (2, toLex (0, 0))
  | _ => toLex (0, toLex (0, 0))

theorem compare_lex (high middle low otherHigh otherMiddle otherLow : Int) :
    compare (toLex (high, toLex (middle, low))) (toLex (otherHigh, toLex (otherMiddle, otherLow))) =
      (compare high otherHigh).then ((compare middle otherMiddle).then (compare low otherLow)) := rfl

theorem compare_casts (first second : Nat) :
    compare (first : Int) (second : Int) = compare first second := by
  rcases Nat.lt_trichotomy first second with below | rfl | above
  · rw [Nat.compare_eq_lt.mpr below, Int.compare_eq_lt.mpr (by omega)]
  · simp
  · rw [Nat.compare_eq_gt.mpr above, Int.compare_eq_gt.mpr (by omega)]

theorem compare_negated (first second : Int) :
    compare (-first) (-second) = (compare first second).swap := by
  rcases Int.lt_trichotomy first second with below | rfl | above
  · rw [Int.compare_eq_lt.mpr below, Int.compare_eq_gt.mpr (by omega), Ordering.swap]
  · simp
  · rw [Int.compare_eq_gt.mpr above, Int.compare_eq_lt.mpr (by omega), Ordering.swap]

theorem compare_ranks {first second : UnpackedFloat} (number : first.isNaN = false)
    (also : second.isNaN = false) : first.compare second = some (compare (rank first) (rank second)) := by
  cases first with
  | notANumber => cases number
  | infinity sign =>
      cases second with
      | notANumber => cases also
      | zero other => cases sign <;> rfl
      | infinity other | finite other => cases sign <;> cases other <;> rfl
  | zero sign =>
      cases second with
      | notANumber => cases also
      | zero other => rfl
      | infinity other | finite other => cases other <;> rfl
  | finite sign mantissa exponent positive =>
      cases second with
      | notANumber => cases also
      | zero other => cases sign <;> rfl
      | infinity other => cases sign <;> cases other <;> rfl
      | finite other otherMantissa otherExponent otherPositive =>
          -- by exponent and mantissa if the signs agree, the other way round below zero
          cases sign <;> cases other
          case negative.negative =>
            simp [UnpackedFloat.compare, rank, compare_lex, compare_negated, compare_casts,
              Ordering.swap_then]
          case positive.positive => simp [UnpackedFloat.compare, rank, compare_lex, compare_casts]
          all_goals rfl

theorem numbers_of_compare {first second : UnpackedFloat} {order : Ordering}
    (compared : first.compare second = some order) : first.isNaN = false ∧ second.isNaN = false := by
  cases first <;> cases second <;> simp_all [UnpackedFloat.compare, UnpackedFloat.isNaN]

/-- Numbers of one rank have the same parts unless both are zeros. -/
theorem equal_parts {first second : UnpackedFloat} (number : first.isNaN = false)
    (also : second.isNaN = false) (same : rank first = rank second) :
    first = second ∨ (∃ sign, first = .zero sign) ∧ ∃ sign, second = .zero sign := by
  cases first with
  | notANumber => cases number
  | infinity sign =>
      cases second with
      | notANumber => cases also
      | infinity other => cases sign <;> cases other <;> first | exact .inl rfl | cases same
      | zero other => cases sign <;> cases same
      | finite other => cases sign <;> cases other <;> cases same
  | zero sign =>
      cases second with
      | notANumber => cases also
      | zero other => exact .inr ⟨⟨sign, rfl⟩, other, rfl⟩
      | infinity other | finite other => cases other <;> cases same
  | finite sign mantissa exponent positive =>
      cases second with
      | notANumber => cases also
      | zero other => cases sign <;> cases same
      | infinity other => cases sign <;> cases other <;> cases same
      | finite other otherMantissa otherExponent otherPositive =>
          cases sign <;> cases other <;> simp [rank] at same ⊢ <;> omega

/-! ## Doubles compared -/

theorem less_iff {first second : Float} : first < second ↔
    first.isNaN = false ∧ second.isNaN = false ∧ rank first.toModel.unpack < rank second.toModel.unpack := by
  have compared : first < second ↔ first.toModel.unpack.compare second.toModel.unpack = some .lt :=
    decide_eq_true_iff.trans beq_iff_eq
  rw [compared]
  constructor
  · intro less
    obtain ⟨number, also⟩ := numbers_of_compare less
    rw [compare_ranks number also, Option.some.injEq, compare_lt_iff_lt] at less
    exact ⟨number, also, less⟩
  · rintro ⟨number, also, less⟩
    rw [compare_ranks number also, compare_lt_iff_lt.mpr less]

theorem at_most_iff {first second : Float} : first ≤ second ↔
    first.isNaN = false ∧ second.isNaN = false ∧ rank first.toModel.unpack ≤ rank second.toModel.unpack := by
  have compared : first ≤ second ↔
      (first.toModel.unpack.compare second.toModel.unpack).any (fun order => order.isLE) = true :=
    decide_eq_true_iff
  rw [compared]
  constructor
  · intro ordered
    cases found : first.toModel.unpack.compare second.toModel.unpack with
    | none => simp [found] at ordered
    | some order =>
        obtain ⟨number, also⟩ := numbers_of_compare found
        rw [compare_ranks number also] at ordered
        exact ⟨number, also, compare_le_iff_le.mp (Ordering.isLE_iff_ne_gt.mp ordered)⟩
  · rintro ⟨number, also, ordered⟩
    rw [compare_ranks number also]
    exact Ordering.isLE_iff_ne_gt.mpr (compare_le_iff_le.mpr ordered)

theorem at_most_self {value : Float} (number : value.isNaN = false) : value ≤ value := by
  rw [at_most_iff]
  exact ⟨number, number, le_refl _⟩

theorem not_less_of_less {first second : Float} (less : first < second) : ¬second < first := by
  rw [less_iff] at less ⊢
  exact fun ⟨_, _, more⟩ => lt_asymm less.2.2 more

theorem not_less_of_at_most {first second : Float} (ordered : first ≤ second) : ¬second < first := by
  rw [at_most_iff] at ordered
  rw [less_iff]
  exact fun ⟨_, _, less⟩ => not_le_of_gt less ordered.2.2

theorem at_most_of_not_less {first second : Float} (number : first.isNaN = false)
    (also : second.isNaN = false) (kept : ¬second < first) : first ≤ second := by
  rw [less_iff] at kept
  rw [at_most_iff]
  exact ⟨number, also, not_lt.mp fun less => kept ⟨also, number, less⟩⟩

theorem less_of_less_of_at_most {first second third : Float} (less : first < second)
    (ordered : second ≤ third) : first < third := by
  rw [at_most_iff] at ordered
  rw [less_iff] at less ⊢
  exact ⟨less.1, ordered.2.1, less.2.2.trans_le ordered.2.2⟩

theorem numbers_of_less {first second : Float} (less : first < second) :
    first.isNaN = false ∧ second.isNaN = false := by
  rw [less_iff] at less
  exact ⟨less.1, less.2.1⟩

theorem alike_of_not_less {first second : Float} (ordered : first ≤ second) (kept : ¬first < second) :
    AlikeButZeros first second := by
  rw [at_most_iff] at ordered
  rw [less_iff] at kept
  obtain ⟨number, also, below⟩ := ordered
  have equal : rank first.toModel.unpack = rank second.toModel.unpack :=
    below.antisymm (not_lt.mp fun less => kept ⟨number, also, less⟩)
  rcases equal_parts number also equal with same | ⟨⟨_, zero⟩, _, also⟩
  · left
    rw [← packed_unpacked first, ← packed_unpacked second, same]
  · exact .inr ⟨zero_of_parts zero, zero_of_parts also⟩

theorem visible_of_less {value zero : Float} (less : value < zero) (empty : (zero == 0.0) = true) :
    (value == 0.0) = false := by
  rw [Bool.eq_false_iff]
  intro also
  obtain ⟨sign, parts⟩ := zero_parts empty
  obtain ⟨other, others⟩ := zero_parts also
  rw [less_iff] at less
  obtain ⟨_, _, below⟩ := less
  rw [parts, others] at below
  exact lt_irrefl _ below

theorem AlikeButZeros.subtract {first second value : Float} (alike : AlikeButZeros first second)
    (visible : (first == 0.0) = true → (value == 0.0) = false) : first - value = second - value := by
  rcases alike with rfl | ⟨zero, also⟩
  · rfl
  · obtain ⟨sign, parts⟩ := zero_parts zero
    obtain ⟨other, others⟩ := zero_parts also
    have alone : UnpackedFloat.sub Format.binary64 (.zero sign) value.toModel.unpack =
        UnpackedFloat.sub Format.binary64 (.zero other) value.toModel.unpack := by
      cases unpacked : value.toModel.unpack with
      | zero third => exact absurd unpacked (visible_parts (visible zero) third)
      | _ => rfl
    rw [difference_of_parts, difference_of_parts, parts, others, alone]

end PolicyLevers.Decimal
