import Mathlib.Data.List.TakeWhile
import PolicyLevers.Decimal.Reading
import PolicyLevers.Script.Token

/-!
# Scanning words apart

A blank or a comment ends the token in front of it, so a text with one in it is scanned piece by piece:
first what stands before it, then the rest from the end of the last token on.  A text made of words
with blanks between them is scanned word by word, where a word is any text that is read as tokens
without gaps, such as `costs.energy`, `-2.5` or `<=`.
-/

namespace PolicyLevers.Script

set_option autoImplicit false

/-! ## What ends a token -/

theorem take_while_stop {p : Char → Bool} {stop : Char} (refused : p stop = false)
    (text rest : List Char) : (text ++ stop :: rest).takeWhile p = text.takeWhile p := by
  induction text with
  | nil => simp [refused]
  | cons c text induction => simp [List.takeWhile_cons, induction]

theorem drop_while_stop {p : Char → Bool} {stop : Char} (refused : p stop = false)
    (text rest : List Char) :
    (text ++ stop :: rest).dropWhile p = text.dropWhile p ++ stop :: rest := by
  induction text with
  | nil => simp [refused]
  | cons c text induction =>
      by_cases accepted : p c
      · simp [accepted, induction]
      · simp [accepted]

theorem space_cases {c : Char} (space : isSpace c = true) :
    c = ' ' ∨ c = '\t' ∨ c = '\r' ∨ c = '\n' := by
  simpa [isSpace, or_assoc] using space

theorem space_parts {c : Char} (space : isSpace c = true) :
    isWordStart c = false ∧ isWordPart c = false ∧ c.isDigit = false ∧
      c ≠ '+' ∧ c ≠ '-' ∧ c ≠ '.' ∧ c ≠ 'e' ∧ c ≠ 'E' ∧ c ≠ '/' ∧ c ≠ '#' := by
  rcases space_cases space with rfl | rfl | rfl | rfl <;> decide

def endsToken (c : Char) : Bool := !isWordPart c && c ≠ '+' && c ≠ '-' && c ≠ '.'

theorem ends_token_parts {c : Char} (ends : endsToken c = true) :
    isWordStart c = false ∧ isWordPart c = false ∧ c.isDigit = false ∧
      c ≠ '+' ∧ c ≠ '-' ∧ c ≠ '.' ∧ c ≠ 'e' ∧ c ≠ 'E' := by
  simp only [endsToken, Bool.and_eq_true, Bool.not_eq_true', decide_eq_true_eq] at ends
  obtain ⟨⟨⟨noPart, noPlus⟩, noMinus⟩, noPoint⟩ := ends
  have parts := noPart
  simp only [isWordPart, Char.isAlphanum, Bool.or_eq_false_iff] at parts
  obtain ⟨⟨noLetter, noDigit⟩, noUnder⟩ := parts
  refine ⟨?_, noPart, noDigit, noPlus, noMinus, noPoint, ?_, ?_⟩
  · simp [isWordStart, noLetter, noUnder]
  · rintro rfl
    cases noLetter
  · rintro rfl
    cases noLetter

theorem space_ends_token {c : Char} (space : isSpace c = true) : endsToken c = true := by
  rcases space_cases space with rfl | rfl | rfl | rfl <;> decide

theorem word_part_ranges {c : Char} (part : isWordPart c = true) :
    (48 ≤ c.toNat ∧ c.toNat ≤ 57) ∨ (65 ≤ c.toNat ∧ c.toNat ≤ 90) ∨ c.toNat = 95 ∨
      (97 ≤ c.toNat ∧ c.toNat ≤ 122) := by
  delta isWordPart Char.isAlphanum Char.isAlpha Char.isUpper Char.isLower Char.isDigit at part
  simp only [Bool.or_eq_true, Bool.and_eq_true, decide_eq_true_eq, ge_iff_le,
    UInt32.le_iff_toNat_le] at part
  change (((65 ≤ c.toNat ∧ c.toNat ≤ 90) ∨ (97 ≤ c.toNat ∧ c.toNat ≤ 122)) ∨
    (48 ≤ c.toNat ∧ c.toNat ≤ 57)) ∨ c = '_' at part
  rcases part with part | rfl
  · omega
  · decide

theorem space_is_blank {c : Char} (space : isSpace c = true) : Text.isBlank c = true := by
  rcases space_cases space with rfl | rfl | rfl | rfl <;> decide

/-- No character with the property `White_Space` belongs to a word or a number. -/
theorem blank_ends_token {c : Char} (blank : Text.isBlank c = true) : endsToken c = true := by
  simp only [endsToken, Bool.and_eq_true, Bool.not_eq_true', decide_eq_true_eq]
  refine ⟨⟨⟨?_, ?_⟩, ?_⟩, ?_⟩
  · cases part : isWordPart c with
    | false => rfl
    | true =>
        have ranges := word_part_ranges part
        simp only [Text.isBlank, Bool.or_eq_true, Bool.and_eq_true, decide_eq_true_eq,
          beq_iff_eq] at blank
        omega
  · rintro rfl
    cases blank
  · rintro rfl
    cases blank
  · rintro rfl
    cases blank
theorem part_visible {c : Char} (part : endsToken c = false) : Text.isBlank c = false := by
  cases blank : Text.isBlank c with
  | false => rfl
  | true =>
      rw [blank_ends_token blank] at part
      cases part

/-- Only a slash behind another one changes what stands in front of it. -/
theorem split_gap_stop {inComment : Bool} {text : List Char} {c : Char}
    (apart : c = '/' → text.getLast? ≠ some '/') (visible : (splitGap inComment text).2 ≠ [])
    (rest : List Char) :
    splitGap inComment (text ++ c :: rest) =
      ((splitGap inComment text).1, (splitGap inComment text).2 ++ c :: rest) := by
  induction text generalizing inComment with
  | nil => simp [splitGap] at visible
  | cons first text induction =>
      have later : c = '/' → text.getLast? ≠ some '/' := by
        intro slash last
        cases text with
        | nil => cases last
        | cons second text => exact apart slash (by simpa using last)
      have slash : (first = '/' && (text ++ c :: rest).head? = some '/') =
          (first = '/' && text.head? = some '/') := by
        cases text with
        | cons second text => rfl
        | nil =>
            by_cases same : c = '/'
            · have other : first ≠ '/' := by simpa using apart same
              simp [other]
            · simp [same]
      simp only [splitGap, List.cons_append, slash] at visible ⊢
      split
      · rename_i open_
        simp only [open_, if_true] at visible
        rw [induction later visible]
      · rename_i closed
        simp only [closed, if_false, Bool.false_eq_true] at visible
        split
        · rename_i blank
          simp only [blank, if_true] at visible
          rw [induction later visible]
        · rename_i notBlank
          simp only [notBlank, if_false, Bool.false_eq_true] at visible
          split
          · rename_i comment
            simp only [comment, if_true] at visible
            rw [induction later visible]
          · simp

theorem split_sign_stop {c : Char} (ends : endsToken c = true) (text rest : List Char) :
    splitSign (text ++ c :: rest) = ((splitSign text).1, (splitSign text).2 ++ c :: rest) := by
  obtain ⟨_, _, _, noPlus, noMinus, _⟩ := ends_token_parts ends
  cases text with
  | nil => simp [splitSign, noPlus, noMinus]
  | cons first text =>
      simp only [splitSign, List.cons_append]
      split <;> simp

theorem split_exponent_stop {c : Char} (ends : endsToken c = true) (text rest : List Char) :
    splitExponent (text ++ c :: rest) =
      ((splitExponent text).1, (splitExponent text).2 ++ c :: rest) := by
  obtain ⟨_, _, noDigit, _, _, _, noMark, noCapital⟩ := ends_token_parts ends
  cases text with
  | nil => simp [splitExponent, noMark, noCapital]
  | cons mark text =>
      simp only [splitExponent, List.cons_append, split_sign_stop ends,
        take_while_stop noDigit, drop_while_stop noDigit]
      split <;> simp

theorem split_fraction_stop {c : Char} (ends : endsToken c = true) (needDigits : Bool)
    (text rest : List Char) :
    splitFraction needDigits (text ++ c :: rest) =
      ((splitFraction needDigits text).1, (splitFraction needDigits text).2 ++ c :: rest) := by
  obtain ⟨_, _, noDigit, _, _, noPoint, _⟩ := ends_token_parts ends
  cases text with
  | nil => simp [splitFraction, noPoint]
  | cons point text =>
      simp only [splitFraction, List.cons_append, take_while_stop noDigit, drop_while_stop noDigit]
      split <;> simp

theorem split_number_stop {c : Char} (ends : endsToken c = true) (text rest : List Char) :
    splitNumber (text ++ c :: rest) =
      ((splitNumber text).1, (splitNumber text).2 ++ c :: rest) := by
  obtain ⟨_, _, noDigit, _⟩ := ends_token_parts ends
  simp only [splitNumber, take_while_stop noDigit, drop_while_stop noDigit,
    split_fraction_stop ends, split_exponent_stop ends]
  split <;> simp

theorem split_token_stop {c : Char} (ends : endsToken c = true) {text after : List Char}
    {token : Token} (found : splitToken text = some (token, after)) (rest : List Char) :
    splitToken (text ++ c :: rest) = some (token, after ++ c :: rest) := by
  obtain ⟨_, noPart, _⟩ := ends_token_parts ends
  cases text with
  | nil => simp [splitToken] at found
  | cons first text =>
      have number := split_number_stop ends (first :: text) rest
      simp only [List.cons_append] at number
      simp only [splitToken, List.cons_append, take_while_stop noPart, drop_while_stop noPart,
        number] at found ⊢
      split at found
      · rename_i word
        simp only [Option.some.injEq, Prod.mk.injEq] at found
        obtain ⟨rfl, rfl⟩ := found
        rw [if_pos word]
      · rename_i word
        rw [if_neg word]
        split at found
        · rename_i none
          simp only [Option.some.injEq, Prod.mk.injEq] at found
          obtain ⟨rfl, rfl⟩ := found
          rw [if_pos none]
        · rename_i some
          simp only [Option.some.injEq, Prod.mk.injEq] at found
          obtain ⟨rfl, rfl⟩ := found
          rw [if_neg some]

theorem scan_nothing {text : List Char} (found : splitToken (splitGap false text).2 = none) :
    scan text = ⟨[], text⟩ := by
  rw [scan]
  split
  · rfl
  · rename_i token rest other
    rw [found] at other
    cases other

theorem scan_token {text rest : List Char} {token : Token}
    (found : splitToken (splitGap false text).2 = some (token, rest)) :
    scan text = ⟨⟨(splitGap false text).1, token⟩ :: (scan rest).pieces, (scan rest).trailing⟩ := by
  rw [scan]
  split
  · rename_i other
    rw [found] at other
    cases other
  · rename_i token rest other
    rw [found] at other
    cases other
    rfl

/-- A text is scanned up to a blank or a comment as if it ended there; the scan goes on behind its last
token. -/
theorem scan_stop {c : Char} (ends : endsToken c = true) {text : List Char}
    (apart : c = '/' → text.getLast? ≠ some '/') (rest : List Char) :
    scan (text ++ c :: rest) =
      ⟨(scan text).pieces ++ (scan ((scan text).trailing ++ c :: rest)).pieces,
        (scan ((scan text).trailing ++ c :: rest)).trailing⟩ := by
  fun_induction scan text with
  | case1 text found => rfl
  | case2 text token after found others induction =>
      have visible : (splitGap false text).2 ≠ [] := by
        intro nothing
        simp [nothing, splitToken] at found
      have gap := split_gap_stop apart visible rest
      have next := split_token_stop ends found rest
      have same : splitToken (splitGap false (text ++ c :: rest)).2 =
          some (token, after ++ c :: rest) := by
        rw [gap]
        exact next
      have later : c = '/' → after.getLast? ≠ some '/' := by
        intro slash last
        obtain ⟨whole, _⟩ := split_token_append found
        refine apart slash ?_
        rw [← split_gap_append false text, ← whole, List.getLast?_append, List.getLast?_append, last]
        rfl
      rw [scan_token same, induction later, gap]
      rfl

theorem scan_space {c : Char} (space : isSpace c = true) (text rest : List Char) :
    scan (text ++ c :: rest) =
      ⟨(scan text).pieces ++ (scan ((scan text).trailing ++ c :: rest)).pieces,
        (scan ((scan text).trailing ++ c :: rest)).trailing⟩ := by
  refine scan_stop (space_ends_token space) ?_ rest
  rintro rfl
  cases space

/-! ## Words -/

def tokensOf (text : List Char) : List Token := (scan text).pieces.map Piece.token

def placed (leading : List Char) : List Token → List Piece
  | [] => []
  | token :: others => ⟨leading, token⟩ :: others.map (Piece.mk [])

def glued (gap : Gap) : List Token → List Lexeme
  | [] => []
  | token :: others => ⟨gap, token⟩ :: others.map (Lexeme.mk .none)

/-- The text is read as these tokens with nothing between or around them. -/
def Spells (text : List Char) (tokens : List Token) : Prop :=
  scan text = ⟨placed [] tokens, []⟩

/-- A word is read as tokens without gaps, and there is no space in it. -/
structure IsWord (word : List Char) : Prop where
  spelled : Spells word (tokensOf word)
  visible : tokensOf word ≠ []
  unbroken : ∀ c ∈ word, isSpace c = false

theorem placed_tokens (leading : List Char) (tokens : List Token) :
    (placed leading tokens).map Piece.token = tokens := by
  cases tokens with
  | nil => rfl
  | cons token tokens => simp [placed, Function.comp_def]

theorem placed_lexemes (leading : List Char) (tokens : List Token) :
    (placed leading tokens).map (fun piece => Lexeme.mk (Gap.ofText piece.leading) piece.token) =
      glued (Gap.ofText leading) tokens := by
  cases tokens with
  | nil => rfl
  | cons token tokens => simp [placed, glued, Gap.ofText]

theorem spells_nothing : Spells [] [] := scan_nothing rfl

theorem spells_token {text rest : List Char} {token : Token} {tokens : List Token}
    (start : splitGap false text = ([], text)) (found : splitToken text = some (token, rest))
    (others : Spells rest tokens) : Spells text (token :: tokens) := by
  have next : splitToken (splitGap false text).2 = some (token, rest) := by
    rw [start]
    exact found
  unfold Spells at others ⊢
  rw [scan_token next, start, others]
  cases tokens <;> rfl

theorem tokens_of_spells {text : List Char} {tokens : List Token} (spelled : Spells text tokens) :
    tokensOf text = tokens := by
  unfold tokensOf
  rw [spelled]
  exact placed_tokens [] tokens

theorem word_of_spells {word : List Char} {tokens : List Token} (spelled : Spells word tokens)
    (visible : tokens ≠ []) (unbroken : ∀ c ∈ word, isSpace c = false) : IsWord word := by
  have same := tokens_of_spells spelled
  exact ⟨by rw [same]; exact spelled, by rw [same]; exact visible, unbroken⟩

theorem scan_blank {text : List Char} {piece : Piece} {pieces : List Piece} {trailing : List Char}
    (scanned : scan text = ⟨piece :: pieces, trailing⟩) :
    scan (' ' :: text) = ⟨⟨' ' :: piece.leading, piece.token⟩ :: pieces, trailing⟩ := by
  have gap : splitGap false (' ' :: text) =
      (' ' :: (splitGap false text).1, (splitGap false text).2) := by
    simp [splitGap, isSpace]
  cases found : splitToken (splitGap false text).2 with
  | none =>
      rw [scan_nothing found] at scanned
      cases scanned
  | some next =>
      obtain ⟨token, rest⟩ := next
      have behind : splitToken (splitGap false (' ' :: text)).2 = some (token, rest) := by
        rw [gap]
        exact found
      rw [scan_token found] at scanned
      cases scanned
      rw [scan_token behind, gap]

theorem scan_words (first : List Char) (others : List (List Char)) (firstWord : IsWord first)
    (otherWords : ∀ word ∈ others, IsWord word) :
    scan (first ++ others.flatMap (List.cons ' ')) =
      ⟨placed [] (tokensOf first) ++
        others.flatMap (fun word => placed [' '] (tokensOf word)), []⟩ := by
  induction others generalizing first with
  | nil => simpa [Spells] using firstWord.spelled
  | cons next others induction =>
      have nextWord := otherWords next (by simp)
      have behind := induction next nextWord (by
        intro word member
        exact otherWords word (by simp [member]))
      have spelled := firstWord.spelled
      cases same : tokensOf next with
      | nil => exact absurd same nextWord.visible
      | cons token tokens =>
          rw [same] at behind
          have blank := scan_blank behind
          unfold Spells at spelled
          rw [List.flatMap_cons, List.flatMap_cons, List.cons_append, scan_space rfl, spelled, same,
            List.nil_append, blank]
          simp [placed]

theorem words_lexemes (first : List Char) (others : List (List Char)) (firstWord : IsWord first)
    (otherWords : ∀ word ∈ others, IsWord word) :
    (scan (first ++ others.flatMap (List.cons ' '))).lexemes =
      glued .none (tokensOf first) ++
        others.flatMap (fun word => glued .blank (tokensOf word)) := by
  unfold Scan.lexemes
  rw [scan_words first others firstWord otherWords, List.map_append, List.map_flatMap]
  simp only [placed_lexemes]
  rfl

/-! ## Which texts are words -/

/-- Starts no gap, no word and no number, and is no point. -/
def isMark (c : Char) : Bool :=
  !isSpace c && c ≠ '#' && c ≠ '/' && c ≠ '.' && !isWordStart c && !c.isDigit

def isSegment : List Char → Bool
  | [] => false
  | c :: rest => isWordStart c && rest.all isWordPart

theorem digit_no_word_start {c : Char} (digit : c.isDigit = true) : isWordStart c = false := by
  have range := Char.isDigit_iff_toNat.mp digit
  change 48 ≤ c.toNat ∧ c.toNat ≤ 57 at range
  cases start : isWordStart c with
  | false => rfl
  | true =>
      delta isWordStart Char.isAlpha Char.isUpper Char.isLower at start
      simp only [Bool.or_eq_true,
        Bool.and_eq_true, decide_eq_true_eq, ge_iff_le, UInt32.le_iff_toNat_le] at start
      change ((65 ≤ c.toNat ∧ c.toNat ≤ 90) ∨ (97 ≤ c.toNat ∧ c.toNat ≤ 122)) ∨ c = '_' at start
      rcases start with letter | rfl
      · omega
      · cases digit

theorem word_start_parts {c : Char} (start : isWordStart c = true) :
    isWordPart c = true ∧ c.isDigit = false ∧ isSpace c = false ∧ c ≠ '#' ∧ c ≠ '/' := by
  refine ⟨?_, ?_, ?_, ?_, ?_⟩
  · simp only [isWordStart, isWordPart, Char.isAlphanum, Bool.or_eq_true] at start ⊢
    rcases start with letter | under
    · exact Or.inl (Or.inl letter)
    · exact Or.inr under
  · by_cases digit : c.isDigit = true
    · rw [digit_no_word_start digit] at start
      cases start
    · simpa using digit
  · by_cases space : isSpace c = true
    · rw [(space_parts space).1] at start
      cases start
    · simpa using space
  · rintro rfl
    cases start
  · rintro rfl
    cases start

theorem digit_parts {c : Char} (digit : c.isDigit = true) :
    isWordStart c = false ∧ isSpace c = false ∧ c ≠ '#' ∧ c ≠ '/' := by
  refine ⟨digit_no_word_start digit, ?_, ?_, ?_⟩
  · by_cases space : isSpace c = true
    · rw [(space_parts space).2.2.1] at digit
      cases digit
    · simpa using space
  · rintro rfl
    cases digit
  · rintro rfl
    cases digit

theorem split_gap_visible {c : Char} (rest : List Char) (noSpace : isSpace c = false)
    (noComment : c ≠ '#') (noSlash : c ≠ '/') : splitGap false (c :: rest) = ([], c :: rest) := by
  simp [splitGap, noSpace, noComment, noSlash]

theorem spells_mark {c : Char} {rest : List Char} {tokens : List Token} (mark : isMark c = true)
    (others : Spells rest tokens) : Spells (c :: rest) (.symbol c :: tokens) := by
  simp only [isMark, Bool.and_eq_true, Bool.not_eq_true', decide_eq_true_eq] at mark
  obtain ⟨⟨⟨⟨⟨noSpace, noComment⟩, noSlash⟩, noPoint⟩, noWord⟩, noDigit⟩ := mark
  refine spells_token (split_gap_visible rest noSpace noComment noSlash) ?_ others
  simp [splitToken, noWord, splitNumber, noDigit, splitFraction, noPoint]

theorem spells_point {rest : List Char} {tokens : List Token}
    (noDigits : rest.takeWhile Char.isDigit = []) (others : Spells rest tokens) :
    Spells ('.' :: rest) (.symbol '.' :: tokens) := by
  refine spells_token (split_gap_visible rest rfl (by decide) (by decide)) ?_ others
  have noWord : isWordStart '.' = false := rfl
  simp [splitToken, noWord, splitNumber, splitFraction, noDigits]

theorem spells_segment {text rest : List Char} {tokens : List Token}
    (segment : isSegment text = true) (ends : ∀ c ∈ rest.head?, isWordPart c = false)
    (others : Spells rest tokens) : Spells (text ++ rest) (.word text :: tokens) := by
  cases text with
  | nil => cases segment
  | cons c parts =>
      simp only [isSegment, Bool.and_eq_true, List.all_eq_true] at segment
      obtain ⟨start, parts_⟩ := segment
      obtain ⟨_, _, noSpace, noComment, noSlash⟩ := word_start_parts start
      refine spells_token (split_gap_visible _ noSpace noComment noSlash) ?_ others
      have stops : rest.takeWhile isWordPart = [] ∧ rest.dropWhile isWordPart = rest := by
        cases rest with
        | nil => simp
        | cons next rest => simp [ends next (by simp)]
      rw [List.cons_append, splitToken, if_pos start, List.takeWhile_append_of_pos parts_,
        List.dropWhile_append_of_pos parts_, stops.1, stops.2, List.append_nil]

theorem sign_digits (text : List Char) : (Decimal.splitSign text).2 = (splitSign text).2 := by
  cases text with
  | nil => rfl
  | cons c rest =>
      by_cases minus : c = '-'
      · subst minus
        rfl
      · by_cases plus : c = '+'
        · subst plus
          rfl
        · simp [Decimal.splitSign, splitSign, minus, plus]

theorem split_exponent_whole {text : List Char} {exponent : Int}
    (read : Decimal.readExponent text = some exponent) : splitExponent text = (text, []) := by
  cases text with
  | nil => rfl
  | cons mark rest =>
      have whole := split_sign_append rest
      simp only [Decimal.readExponent, sign_digits] at read
      split at read
      · rename_i numeral
        simp only [Bool.and_eq_true, Bool.not_eq_true', List.all_eq_true] at numeral
        obtain ⟨⟨letter, some⟩, digits⟩ := numeral
        have taken := List.takeWhile_eq_self_iff.mpr digits
        have left := List.dropWhile_eq_nil_iff.mpr digits
        simp only [splitExponent, taken, left, letter, some, whole, Bool.not_false, Bool.and_self,
          if_true]
      · cases read

/-- All of a text that reads as a number without sign is one number to the scanner. -/
theorem split_number_whole {text : List Char} {magnitude : Decimal.Magnitude}
    (read : Decimal.readMagnitude text = some magnitude) : (splitNumber text).2 = [] := by
  unfold Decimal.readMagnitude at read
  unfold splitNumber
  generalize text.takeWhile Char.isDigit = whole at read ⊢
  generalize text.dropWhile Char.isDigit = afterWhole at read ⊢
  dsimp only at read ⊢
  split at read
  · rename_i point rest
    split at read
    · cases read
    · rename_i digits
      simp only [Bool.not_eq_true] at digits
      obtain ⟨exponent, found, _⟩ := Option.map_eq_some_iff.mp read
      have fraction : splitFraction whole.isEmpty ('.' :: rest) =
          ('.' :: rest.takeWhile Char.isDigit, rest.dropWhile Char.isDigit) := by
        simp only [splitFraction, digits, Bool.not_false, Bool.and_true, decide_true, if_true]
      have behind := split_exponent_whole found
      dsimp only at behind
      simp [fraction, behind]
  · rename_i noPoint
    split at read
    · cases read
    · rename_i digits
      obtain ⟨exponent, found, _⟩ := Option.map_eq_some_iff.mp read
      have fraction : splitFraction whole.isEmpty afterWhole = ([], afterWhole) := by
        cases afterWhole with
        | nil => rfl
        | cons point rest =>
            have : point ≠ '.' := by
              rintro rfl
              exact noPoint rest rfl
            simp [splitFraction, this]
      have behind := split_exponent_whole found
      dsimp only at behind
      have some : whole ≠ [] := by simpa using digits
      simp [fraction, behind, some]

theorem magnitude_start {c : Char} {rest : List Char} {magnitude : Decimal.Magnitude}
    (read : Decimal.readMagnitude (c :: rest) = some magnitude) : c.isDigit = true ∨ c = '.' := by
  by_cases digit : c.isDigit = true
  · exact Or.inl digit
  · by_cases point : c = '.'
    · exact Or.inr point
    · have whole : (c :: rest).takeWhile Char.isDigit = [] := by simp [digit]
      have afterWhole : (c :: rest).dropWhile Char.isDigit = c :: rest := by simp [digit]
      simp only [Decimal.readMagnitude, whole, afterWhole] at read
      split at read
      · rename_i same
        injection same with first
        exact absurd first point
      · cases read

theorem spells_numeral {text : List Char} {magnitude : Decimal.Magnitude}
    (read : Decimal.readMagnitude text = some magnitude) : Spells text [.digits text] := by
  have whole := split_number_append text
  rw [split_number_whole read, List.append_nil] at whole
  cases text with
  | nil => cases read
  | cons c rest =>
      have parts : isWordStart c = false ∧ isSpace c = false ∧ c ≠ '#' ∧ c ≠ '/' := by
        rcases magnitude_start read with digit | rfl
        · exact digit_parts digit
        · decide
      obtain ⟨noWord, noSpace, noComment, noSlash⟩ := parts
      refine spells_token (split_gap_visible rest noSpace noComment noSlash) ?_ spells_nothing
      simp [splitToken, noWord, whole, split_number_whole read]

theorem numeral_parts {text : List Char} {magnitude : Decimal.Magnitude}
    (read : Decimal.readMagnitude text = some magnitude) : ∀ c ∈ text, endsToken c = false := by
  intro c member
  cases ends : endsToken c with
  | false => rfl
  | true =>
      obtain ⟨before, after, rfl⟩ := List.append_of_mem member
      have nothingLeft := split_number_whole read
      rw [split_number_stop ends] at nothingLeft
      simp at nothingLeft

theorem numeral_unbroken {text : List Char} {magnitude : Decimal.Magnitude}
    (read : Decimal.readMagnitude text = some magnitude) : ∀ c ∈ text, isSpace c = false := by
  intro c member
  cases space : isSpace c with
  | false => rfl
  | true =>
      have part := numeral_parts read c member
      rw [space_ends_token space] at part
      cases part

end PolicyLevers.Script
