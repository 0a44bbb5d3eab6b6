import PolicyLevers.Proofs.CoveredTexts
import PolicyLevers.Proofs.JoinedScripts
import PolicyLevers.Proofs.NestingHeight
import PolicyLevers.Proofs.RespacedTokens

/-!
# The numbers of a script

A number is read from its text without the blanks in it.  The grammar lets comments stand between a sign
and its digits too, and with one of these the text is no number.  A script that the grammar accepts is
refused for such a number or for its nesting, and for nothing else.
-/

namespace PolicyLevers.Script

set_option autoImplicit false

/-- What the text of a number is read as: its blanks are left out. -/
def readSpaced (text : List Char) : Option Float :=
  Decimal.readFloat (text.filter (fun c => !Text.isBlank c))

/-! ## Texts that are read -/

theorem magnitude_reads {text : List Char} {magnitude : Decimal.Magnitude}
    (read : Decimal.readMagnitude text = some magnitude) :
    Decimal.readUnsigned text = some magnitude.toFloat := by
  cases text with
  | nil => cases read
  | cons c rest =>
      rcases magnitude_start read with digit | rfl
      · rw [Decimal.read_unsigned_digit digit, read]
        rfl
      · rw [Decimal.read_unsigned_nameless (by decide) (by decide), read]
        rfl

/-- Digits with or without a sign name a double, and this is the number that the script means. -/
theorem signed_digits_read {sign : Option Char} {digits : List Char} {magnitude : Decimal.Magnitude}
    (mark : ∀ c ∈ sign, c = '+' ∨ c = '-') (read : Decimal.readMagnitude digits = some magnitude) :
    ∃ value, Decimal.readFloat (sign.toList ++ digits) = some value ∧ numberValue sign digits = value := by
  have unsigned : (Decimal.splitSign (sign.toList ++ digits)).2 = digits := by
    cases sign with
    | none =>
        cases digits with
        | nil => rfl
        | cons c rest =>
            have other : ¬(c = '+' ∨ c = '-') := by
              rintro (rfl | rfl)
              · exact absurd (magnitude_start read) (by decide)
              · exact absurd (magnitude_start read) (by decide)
            change (Decimal.splitSign (c :: rest)).2 = c :: rest
            rw [sign_digits]
            simp [splitSign, other]
    | some c =>
        rcases mark c rfl with rfl | rfl
        · rfl
        · rfl
  have whole : Decimal.readFloat (sign.toList ++ digits) =
      some (if (Decimal.splitSign (sign.toList ++ digits)).1 then -magnitude.toFloat
        else magnitude.toFloat) := by
    unfold Decimal.readFloat
    dsimp only
    rw [unsigned, magnitude_reads read]
    rfl
  exact ⟨_, whole, by rw [numberValue, whole]; rfl⟩

/-- A sign with a comment behind it starts no number. -/
theorem commented_sign_unread {mark c : Char} (sign : mark = '+' ∨ mark = '-')
    (comment : c = '#' ∨ c = '/') (rest : List Char) : Decimal.readFloat (mark :: c :: rest) = none := by
  have unsigned : (Decimal.splitSign (mark :: c :: rest)).2 = c :: rest := by
    rcases sign with rfl | rfl
    · rfl
    · rfl
  have unread : Decimal.readMagnitude (c :: rest) = none := by
    cases read : Decimal.readMagnitude (c :: rest) with
    | none => rfl
    | some magnitude =>
        rcases comment with rfl | rfl
        · exact absurd (magnitude_start read) (by decide)
        · exact absurd (magnitude_start read) (by decide)
  have nothing : Decimal.readUnsigned (c :: rest) = none := by
    rcases comment with rfl | rfl
    · rw [Decimal.read_unsigned_nameless (by decide) (by decide), unread]
      rfl
    · rw [Decimal.read_unsigned_nameless (by decide) (by decide), unread]
      rfl
  unfold Decimal.readFloat
  dsimp only
  rw [unsigned, nothing]
  rfl

/-! ## Numbers in a script -/

theorem comment_start {gap rest : List Char} (split : splitGap false (gap ++ rest) = (gap, rest))
    (comment : gap.all isSpace = false) :
    ∃ c more, gap.filter (fun c => !Text.isBlank c) = c :: more ∧ (c = '#' ∨ c = '/') := by
  induction gap with
  | nil => cases comment
  | cons c gap induction =>
      by_cases space : isSpace c = true
      · have inner : splitGap false (gap ++ rest) = (gap, rest) := by
          simpa [splitGap, space, Prod.ext_iff] using split
        simpa [space_is_blank space] using induction inner (by simpa [space] using comment)
      · have start : (splitGap false (c :: (gap ++ rest))).1 ≠ [] := by
          rw [List.cons_append] at split
          rw [split]
          exact List.cons_ne_nil _ _
        have mark : c = '#' ∨ c = '/' := by
          rcases gap_start start with blank | hash | ⟨slash, _⟩
          · exact absurd blank space
          · exact Or.inl hash
          · exact Or.inr slash
        have visible : Text.isBlank c = false := by
          rcases mark with rfl | rfl <;> decide
        exact ⟨c, gap.filter (fun c => !Text.isBlank c), by simp [visible], mark⟩

/-- A number of a script and the text that its span covers.  Without its blanks the text is read as the value
of the number, unless a comment stands between sign and digits: then it is read as none. -/
structure NumberText (source text : List Char) (number : Operand) : Prop where
  covered : ((Offsets.ofScan (scan source)).span number.extent).Covers source text
  whole : number.Unbroken → ∃ value, readSpaced text = some value ∧ number.toExpr = .number value
  broken : ¬number.Unbroken → readSpaced text = none

theorem parts_kept {text : List Char} (parts : ∀ c ∈ text, endsToken c = false) :
    text.filter (fun c => !Text.isBlank c) = text := by
  apply List.filter_eq_self.mpr
  intro c member
  rw [part_visible (parts c member)]
  rfl

theorem spaces_dropped {gap : List Char} (spaces : gap.all isSpace = true) :
    gap.filter (fun c => !Text.isBlank c) = [] := by
  apply List.filter_eq_nil_iff.mpr
  intro c member
  rw [space_is_blank (List.all_eq_true.mp spaces c member)]
  simp

theorem digits_of_piece {source : List Char} {front behind : List Piece} {piece : Piece}
    {trailing digits : List Char} (scanned : scan source = ⟨front ++ piece :: behind, trailing⟩)
    (token : piece.token = .digits digits) :
    (∃ magnitude, Decimal.readMagnitude digits = some magnitude) ∧
      ∃ rest, splitGap false (piece.leading ++ rest) = (piece.leading, rest) := by
  obtain ⟨rest, together, split, found, _⟩ := scan_cons (scan_rest scanned)
  rw [together] at split
  rw [token] at found
  exact ⟨scanned_digits found, _, split⟩

theorem unsigned_text {digits : List Char} {magnitude : Decimal.Magnitude}
    (read : Decimal.readMagnitude digits = some magnitude) :
    ∃ value, readSpaced digits = some value ∧ numberValue none digits = value := by
  have noMark : ∀ c ∈ (none : Option Char), c = '+' ∨ c = '-' := by simp
  obtain ⟨value, found, meant⟩ := signed_digits_read noMark read
  refine ⟨value, ?_, meant⟩
  unfold readSpaced
  rw [parts_kept (numeral_parts read)]
  exact found

section Signed

variable {mark : Char} (sign : mark = '+' ∨ mark = '-') {gap digits : List Char}

include sign

theorem signed_filter :
    (mark :: (gap ++ digits)).filter (fun c => !Text.isBlank c) =
      mark :: (gap.filter (fun c => !Text.isBlank c) ++ digits.filter (fun c => !Text.isBlank c)) := by
  have visible : Text.isBlank mark = false := by
    rcases sign with rfl | rfl
    · rfl
    · rfl
  simp [visible]

theorem signed_text {magnitude : Decimal.Magnitude}
    (read : Decimal.readMagnitude digits = some magnitude) (spaces : gap.all isSpace = true) :
    ∃ value, readSpaced (mark :: (gap ++ digits)) = some value ∧
      numberValue (some mark) digits = value := by
  have ownMark : ∀ c ∈ some mark, c = '+' ∨ c = '-' := by
    rintro _ ⟨⟩
    exact sign
  obtain ⟨value, found, meant⟩ := signed_digits_read ownMark read
  refine ⟨value, ?_, meant⟩
  unfold readSpaced
  rw [signed_filter sign, spaces_dropped spaces, parts_kept (numeral_parts read)]
  exact found

theorem commented_text {rest : List Char} (split : splitGap false (gap ++ rest) = (gap, rest))
    (comment : gap.all isSpace = false) : readSpaced (mark :: (gap ++ digits)) = none := by
  obtain ⟨c, more, start, hash⟩ := comment_start split comment
  unfold readSpaced
  rw [signed_filter sign, start]
  exact commented_sign_unread sign hash _

end Signed

theorem number_text {source : List Char} {number : Operand}
    (stands : number.Stands (scan source).lexemes) : ∃ text, NumberText source text number := by
  obtain ⟨_, rest, ⟨before, whole⟩, written⟩ := stands
  unfold Scan.lexemes at whole
  obtain ⟨front, _, pieces, _, others⟩ := List.map_eq_append_iff.mp whole.symm
  cases written with
  | unsigned gap digits =>
      obtain ⟨piece, behind, rfl, token, rfl⟩ := List.map_eq_cons_iff.mp others
      have digitsToken : piece.token = .digits digits := congrArg Lexeme.token token
      have scanned : scan source = ⟨front ++ piece :: ([] ++ behind), (scan source).trailing⟩ := by
        rw [List.nil_append, ← pieces]
      obtain ⟨⟨magnitude, read⟩, _⟩ := digits_of_piece scanned digitsToken
      have covered := tokens_covered scanned
      refine ⟨digits, ?_, ?_, ?_⟩
      · simpa [digitsToken, Token.text, Scan.text, Operand.extent] using covered
      · intro _
        obtain ⟨value, found, meant⟩ := unsigned_text read
        exact ⟨value, found, congrArg Expr.number meant⟩
      · intro broken
        refine absurd ?_ broken
        rintro _ ⟨⟩
  | @signed first c mark gap digits =>
      obtain ⟨sign, _, rfl, signToken, later⟩ := List.map_eq_cons_iff.mp others
      obtain ⟨piece, behind, rfl, token, rfl⟩ := List.map_eq_cons_iff.mp later
      have digitsToken : piece.token = .digits digits := congrArg Lexeme.token token
      have scanned : scan source = ⟨front ++ sign :: ([piece] ++ behind), (scan source).trailing⟩ := by
        rw [List.singleton_append, ← pieces]
      have signSymbol : sign.token = .symbol c := congrArg Lexeme.token signToken
      have gapKind : Gap.ofText piece.leading = gap := congrArg Lexeme.gap token
      have covered := tokens_covered scanned
      rw [List.append_cons] at scanned
      obtain ⟨⟨magnitude, read⟩, after, split⟩ := digits_of_piece scanned digitsToken
      refine ⟨c :: (piece.leading ++ digits), ?_, ?_, ?_⟩
      · simpa [signSymbol, digitsToken, Token.text, Scan.text, Operand.extent, Nat.add_comm,
          Nat.add_left_comm] using covered
      · intro unbroken
        have spaces : piece.leading.all isSpace = true := by
          have noComment : gap ≠ .comment := unbroken _ rfl
          simpa [← gapKind, gap_comment_iff] using noComment
        obtain ⟨value, found, meant⟩ := signed_text mark read spaces
        exact ⟨value, found, congrArg Expr.number meant⟩
      · intro broken
        have comment : piece.leading.all isSpace = false := by
          apply gap_comment_iff.mp
          rw [gapKind]
          simpa [Operand.Unbroken] using broken
        exact commented_text mark split comment

/-! ## Accepted scripts -/

theorem numbers_stand {tokens rest : List Lexeme} {written : List WrittenStatement}
    (found : (Grammar.read tokens).outcome = some (written, rest)) :
    ∀ statement ∈ written, ∀ number ∈ statement.form.numbers, number.Stands tokens := by
  intro statement member number inside
  obtain ⟨rfl, _⟩ := Grammar.read_some_iff.mp found
  have alike : List.Forall₂ Lexeme.Alike tokens tokens :=
    List.forall₂_same.mpr (fun _ _ => ⟨rfl, Iff.rfl⟩)
  obtain ⟨moved, _, same⟩ := read_respaced alike found
  obtain ⟨_, _, form⟩ := partner_of_forall₂ (List.Forall₂.flip same) member
  obtain ⟨_, _, both⟩ := partner_of_forall₂ (List.Forall₂.flip form.numbers) inside
  exact both.first

/-- An accepted script becomes statements if its expressions nest in the limit and no number has a comment
in it. -/
theorem accepted_ok_iff {source : String} {written : List WrittenStatement} {rest : List Lexeme}
    (accepted : (Grammar.read (scan source.toList).lexemes).outcome = some (written, rest))
    (limit : Nat) :
    (∃ statements, parse limit source = .ok statements) ↔
      ∀ statement ∈ written, statement.form.height ≤ limit ∧
        ∀ number ∈ statement.form.numbers, number.Unbroken := by
  obtain ⟨rfl, _⟩ := Grammar.read_some_iff.mp accepted
  have clean (statement : WrittenStatement) : statement.form.faults limit = [] ↔
      statement.form.height ≤ limit ∧ ∀ number ∈ statement.form.numbers, number.Unbroken := by
    rw [StatementForm.faults_nil_iff, StatementForm.unbroken_iff, and_comm]
  simp only [parse_ok_iff, accepted, Option.some.injEq, Prod.mk.injEq, and_true, clean]
  constructor
  · rintro ⟨_, _, rfl, faultless, _⟩
    exact faultless
  · intro faultless
    exact ⟨_, written, rfl, faultless, rfl⟩

theorem accepted_error {source : String} {written : List WrittenStatement} {rest : List Lexeme}
    (accepted : (Grammar.read (scan source.toList).lexemes).outcome = some (written, rest))
    {limit : Nat} {error : SyntaxError} (refused : parse limit source = .error error) :
    error.fault = .tooDeep limit ∨ error.fault = .brokenNumber ∧
      ∃ statement ∈ written, ∃ number ∈ statement.form.numbers, ¬number.Unbroken ∧
        error.span = (Offsets.ofScan (scan source.toList)).span number.extent := by
  unfold parse at refused
  dsimp only at refused
  rw [accepted] at refused
  dsimp only at refused
  split at refused
  · rename_i fault others faults
    have member : fault ∈ written.flatMap (fun statement => statement.form.faults limit) := by
      rw [faults]
      exact List.mem_cons_self
    obtain ⟨statement, inside, own⟩ := List.mem_flatMap.mp member
    cases refused
    rcases statement.form.faults_explained limit fault own with deep | ⟨broken, number, here, place, torn⟩
    · exact Or.inl (by rw [SyntaxError.at, deep]; rfl)
    · exact Or.inr ⟨by rw [SyntaxError.at, broken]; rfl, statement, inside, number, here, torn,
        by rw [SyntaxError.at, place]⟩
  · cases refused

/-- A script that the grammar accepts is refused only for expressions that nest too deeply and for numbers
with a comment between sign and digits.  All its other numbers are read as doubles. -/
theorem accepted_scripts_break_in_commented_numbers {source : String} {written : List WrittenStatement}
    {rest : List Lexeme}
    (accepted : (Grammar.read (scan source.toList).lexemes).outcome = some (written, rest)) :
    (∀ statement ∈ written, ∀ number ∈ statement.form.numbers,
      ∃ text, NumberText source.toList text number) ∧
    ∀ limit,
      ((∃ statements, parse limit source = .ok statements) ↔
        ∀ statement ∈ written, statement.form.height ≤ limit ∧
          ∀ number ∈ statement.form.numbers, number.Unbroken) ∧
      ∀ error, parse limit source = .error error →
        error.fault = .tooDeep limit ∨ error.fault = .brokenNumber ∧
          ∃ statement ∈ written, ∃ number ∈ statement.form.numbers, ¬number.Unbroken ∧
            error.span = (Offsets.ofScan (scan source.toList)).span number.extent :=
  ⟨fun statement member number inside => number_text (numbers_stand accepted statement member number inside),
    fun limit => ⟨accepted_ok_iff accepted limit, fun _ refused => accepted_error accepted refused⟩⟩

def notedSign : String := "x = - # note\n5;"

theorem noted_sign_is_unread :
    ∃ error, parse 50 notedSign = .error error ∧ error.message = "invalid number: invalid float literal" ∧
      ∃ text, error.span.Covers notedSign.toList text ∧ readSpaced text = none := by
  have refused : parse 50 notedSign = .error ⟨.brokenNumber, ⟨4, 14⟩, ⟨1, 5⟩⟩ := by decide +kernel
  have visible : (Grammar.read (scan notedSign.toList).lexemes).outcome.isSome = true := by
    decide +kernel
  obtain ⟨⟨written, rest⟩, accepted⟩ := Option.isSome_iff_exists.mp visible
  obtain ⟨texts, refusals⟩ := accepted_scripts_break_in_commented_numbers accepted
  rcases (refusals 50).2 _ refused with deep | ⟨_, statement, member, number, inside, torn, place⟩
  · cases deep
  · obtain ⟨text, numberText⟩ := texts statement member number inside
    refine ⟨_, refused, rfl, text, ?_, numberText.broken torn⟩
    rw [place]
    exact numberText.covered

/-- The grammar accepts the number, but it does not become one. -/
theorem noted_sign_is_refused :
    (Grammar.read (scan notedSign.toList).lexemes).outcome.isSome = true ∧
    parse 50 notedSign = .error ⟨.brokenNumber, ⟨4, 14⟩, ⟨1, 5⟩⟩ ∧
    SyntaxFault.brokenNumber.message = "invalid number: invalid float literal" := by
  decide +kernel

end PolicyLevers.Script
