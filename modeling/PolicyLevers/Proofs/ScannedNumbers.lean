import PolicyLevers.Proofs.ScannedWords

/-!
# Scanned numbers are numbers

What the scanner takes for a number reads as one: digits, perhaps with a point and a power of ten.
-/

namespace PolicyLevers.Decimal

set_option autoImplicit false

def NoDigit (rest : List Char) : Prop := ∀ c ∈ rest.head?, c.isDigit = false

theorem no_digit_cons {c : Char} (other : c.isDigit = false) (rest : List Char) : NoDigit (c :: rest) := by
  rintro _ ⟨⟩
  exact other

theorem no_digit_nil : NoDigit [] := by
  rintro _ ⟨⟩

theorem split_digits {digits rest : List Char} (all : digits.all Char.isDigit = true)
    (stops : NoDigit rest) :
    (digits ++ rest).takeWhile Char.isDigit = digits ∧ (digits ++ rest).dropWhile Char.isDigit = rest := by
  rw [List.takeWhile_append_of_pos (List.all_eq_true.mp all),
    List.dropWhile_append_of_pos (List.all_eq_true.mp all)]
  cases rest with
  | nil => simp
  | cons c rest =>
      have other := stops c rfl
      simp [other]

/-! ## Texts that name no infinity -/

theorem digit_lower {c : Char} (digit : c.isDigit = true) : c.toLower = c := by
  have range := Char.isDigit_iff_toNat.mp digit
  unfold Char.toLower
  rw [dif_neg]
  rintro ⟨low, -⟩
  have above : 65 ≤ c.toNat := low
  have below : c.toNat ≤ 57 := range.2
  omega

theorem read_unsigned_nameless {c : Char} (noInf : c.toLower ≠ 'i') (noNan : c.toLower ≠ 'n')
    (text : List Char) :
    readUnsigned (c :: text) = (readMagnitude (c :: text)).map Magnitude.toFloat := by
  have differs (name : String) (first : Char) (others : List Char)
      (letters : name.toList = first :: others) (other : c.toLower ≠ first) :
      String.ofList ((c :: text).map Char.toLower) ≠ name := by
    rintro rfl
    rw [String.toList_ofList, List.map_cons] at letters
    exact other (List.cons.inj letters).1
  unfold readUnsigned
  dsimp only
  rw [if_neg, if_neg (differs "nan" 'n' _ rfl noNan)]
  simp only [Bool.or_eq_true, decide_eq_true_eq, not_or]
  exact ⟨differs "inf" 'i' _ rfl noInf, differs "infinity" 'i' _ rfl noInf⟩

theorem read_unsigned_digit {c : Char} (digit : c.isDigit = true) (text : List Char) :
    readUnsigned (c :: text) = (readMagnitude (c :: text)).map Magnitude.toFloat := by
  apply read_unsigned_nameless
  · rw [digit_lower digit]
    rintro rfl
    cases digit
  · rw [digit_lower digit]
    rintro rfl
    cases digit

end PolicyLevers.Decimal

namespace PolicyLevers.Script

set_option autoImplicit false

open Decimal (NoDigit no_digit_cons no_digit_nil split_digits)

theorem digits_taken (text : List Char) : (text.takeWhile Char.isDigit).all Char.isDigit = true :=
  List.all_takeWhile

theorem split_sign_digits (text : List Char) :
    splitSign ((splitSign text).1 ++ (splitSign text).2.takeWhile Char.isDigit) =
      ((splitSign text).1, (splitSign text).2.takeWhile Char.isDigit) := by
  cases text with
  | nil => rfl
  | cons c text =>
      by_cases mark : (c = '+' || c = '-') = true
      · simp [splitSign, mark]
      · simp only [splitSign, mark, if_false, Bool.false_eq_true, List.nil_append]
        by_cases digit : c.isDigit = true
        · simp [digit, mark]
        · simp [digit]

/-- A power of ten that was scanned reads as one, and no digit or point stands at its start. -/
theorem scanned_exponent (text : List Char) :
    (∃ power, Decimal.readExponent (splitExponent text).1 = some power) ∧
      NoDigit (splitExponent text).1 ∧ (splitExponent text).1.head? ≠ some '.' := by
  cases text with
  | nil => exact ⟨⟨0, rfl⟩, no_digit_nil, by simp [splitExponent]⟩
  | cons mark rest =>
      simp only [splitExponent]
      split
      · rename_i exponent
        simp only [Bool.and_eq_true, Bool.or_eq_true, decide_eq_true_eq, Bool.not_eq_true'] at exponent
        obtain ⟨letter, present⟩ := exponent
        have digits := digits_taken (splitSign rest).2
        have signed : (Decimal.splitSign ((splitSign rest).1 ++
            (splitSign rest).2.takeWhile Char.isDigit)).2 =
              (splitSign rest).2.takeWhile Char.isDigit := by
          rw [sign_digits, split_sign_digits]
        refine ⟨?_, ?_, ?_⟩
        · simp [Decimal.readExponent, signed, letter, present, digits]
        · rcases letter with rfl | rfl <;> exact no_digit_cons rfl _
        · rcases letter with rfl | rfl <;> simp
      · exact ⟨⟨0, rfl⟩, no_digit_nil, by simp⟩

theorem scanned_fraction (need : Bool) (text : List Char) :
    (splitFraction need text).1 = [] ∨ ∃ digits, (splitFraction need text).1 = '.' :: digits ∧
      digits.all Char.isDigit = true ∧ (need = true → digits ≠ []) := by
  cases text with
  | nil => exact Or.inl rfl
  | cons point rest =>
      simp only [splitFraction]
      split
      · rename_i fraction
        simp only [Bool.and_eq_true, decide_eq_true_eq, Bool.not_eq_true', Bool.and_eq_false_iff,
          List.isEmpty_eq_false_iff] at fraction
        obtain ⟨rfl, present⟩ := fraction
        refine Or.inr ⟨_, rfl, digits_taken rest, fun needed => ?_⟩
        rcases present with optional | present
        · rw [needed] at optional
          cases optional
        · exact present
      · exact Or.inl rfl

/-- What was scanned as a number reads as a magnitude. -/
theorem scanned_number {text : List Char} (present : (splitNumber text).1 ≠ []) :
    ∃ magnitude, Decimal.readMagnitude (splitNumber text).1 = some magnitude := by
  simp only [splitNumber] at present ⊢
  have wholes := digits_taken text
  generalize text.takeWhile Char.isDigit = whole at present wholes ⊢
  generalize text.dropWhile Char.isDigit = afterWhole at present ⊢
  have fractions := scanned_fraction whole.isEmpty afterWhole
  obtain ⟨⟨power, read⟩, noDigit, noPoint⟩ := scanned_exponent (splitFraction whole.isEmpty afterWhole).2
  generalize splitFraction whole.isEmpty afterWhole = fraction at *
  split
  · rename_i nothing
    simp [nothing] at present
  · rename_i something
    generalize splitExponent fraction.2 = exponent at *
    rcases fractions with none | ⟨digits, point, all, needed⟩
    · have visible : whole ≠ [] := by
        rintro rfl
        simp [none] at something
      obtain ⟨taken, left⟩ := split_digits wholes noDigit
      rw [none, List.append_nil]
      unfold Decimal.readMagnitude
      rw [taken, left]
      dsimp only
      split
      · rename_i rest same
        simp [same] at noPoint
      · simp [visible, read]
    · have visible : ¬(whole = [] ∧ digits = []) := by
        rintro ⟨rfl, rfl⟩
        exact needed rfl rfl
      obtain ⟨taken, left⟩ := split_digits wholes (no_digit_cons (c := '.') rfl (digits ++ exponent.1))
      obtain ⟨others, behind⟩ := split_digits all noDigit
      rw [point, List.append_assoc, List.cons_append]
      unfold Decimal.readMagnitude
      simp [taken, left, others, behind, visible, read]

theorem scanned_digits {text rest digits : List Char}
    (found : splitToken text = some (.digits digits, rest)) :
    ∃ magnitude, Decimal.readMagnitude digits = some magnitude := by
  cases text with
  | nil => cases found
  | cons c text =>
      simp only [splitToken] at found
      split at found
      · cases found
      · split at found
        · cases found
        · rename_i number
          cases found
          exact scanned_number (by simpa using number)

theorem scanned_parts {text rest : List Char} {token : Token}
    (found : splitToken text = some (token, rest)) :
    (∃ c, token = .symbol c) ∨ ∀ c ∈ token.text, endsToken c = false := by
  cases text with
  | nil => cases found
  | cons first others =>
      simp only [splitToken] at found
      split at found
      · rename_i word
        simp only [Option.some.injEq, Prod.mk.injEq] at found
        obtain ⟨rfl, _⟩ := found
        refine Or.inr (fun c member => ?_)
        have part : isWordPart c = true := by
          rcases List.mem_cons.mp member with rfl | member
          · exact (word_start_parts word).1
          · exact List.mem_takeWhile_imp member
        simp [endsToken, part]
      · split at found
        · simp only [Option.some.injEq, Prod.mk.injEq] at found
          exact Or.inl ⟨first, found.1.symm⟩
        · rename_i number
          simp only [Option.some.injEq, Prod.mk.injEq] at found
          obtain ⟨rfl, _⟩ := found
          obtain ⟨magnitude, read⟩ := scanned_number (by simpa using number)
          exact Or.inr (numeral_parts read)

end PolicyLevers.Script
