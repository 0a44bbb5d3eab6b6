import PolicyLevers.Text.Blank

/-!
# Tokens of a script

A script is a sequence of tokens with blanks and comments between them.  `scan` splits a text into
tokens without losing a character: every token keeps the text in front of it, and what follows the
last token is kept too.  A comment runs from `#` or `//` to the end of its line.  Words are the
longest runs of letters, digits and underscores that do not start with a digit, numbers are the
longest runs that read as an unsigned decimal number, and every other character stands alone.
-/

namespace PolicyLevers.Script

set_option autoImplicit false

/-- Separates tokens: space, tab, carriage return and line feed. -/
def isSpace (c : Char) : Bool := c = ' ' || c = '\t' || c = '\r' || c = '\n'

def isWordStart (c : Char) : Bool := c.isAlpha || c = '_'

def isWordPart (c : Char) : Bool := c.isAlphanum || c = '_'

inductive Token where
  | word (text : List Char)
  | digits (text : List Char)
  | symbol (c : Char)
  deriving DecidableEq, Repr

def Token.text : Token → List Char
  | word text => text
  | digits text => text
  | symbol c => [c]

/-- What stands between a token and the one before it. -/
inductive Gap where
  /-- Nothing: the tokens touch. -/
  | none
  | blank
  /-- At least one comment. -/
  | comment
  deriving DecidableEq, Repr

/-- A token and what separates it from the one before. -/
structure Lexeme where
  gap : Gap
  token : Token
  deriving DecidableEq, Repr

structure Piece where
  leading : List Char
  token : Token
  deriving DecidableEq, Repr

structure Scan where
  pieces : List Piece
  trailing : List Char
  deriving DecidableEq, Repr

/-- Splits the blanks and comments off the start of a text; `inComment` tells that a comment is
open. -/
def splitGap (inComment : Bool) : List Char → List Char × List Char
  | [] => ([], [])
  | c :: rest =>
    if inComment then
      let (gap, after) := splitGap (c ≠ '\n') rest
      (c :: gap, after)
    else if isSpace c then
      let (gap, after) := splitGap false rest
      (c :: gap, after)
    else if c = '#' || (c = '/' && rest.head? = some '/') then
      let (gap, after) := splitGap true rest
      (c :: gap, after)
    else ([], c :: rest)

def Gap.ofText (text : List Char) : Gap :=
  if text.isEmpty then .none else if text.all isSpace then .blank else .comment

def splitSign (text : List Char) : List Char × List Char :=
  match text with
  | c :: rest => if c = '+' || c = '-' then ([c], rest) else ([], text)
  | [] => ([], [])

/-- Splits an exponent off the start of a text: `e`, an optional sign and digits, or nothing. -/
def splitExponent (text : List Char) : List Char × List Char :=
  match text with
  | mark :: rest =>
    let (sign, digits) := splitSign rest
    if (mark = 'e' || mark = 'E') && !(digits.takeWhile Char.isDigit).isEmpty then
      (mark :: (sign ++ digits.takeWhile Char.isDigit), digits.dropWhile Char.isDigit)
    else ([], text)
  | [] => ([], [])

/-- Splits a point and digits off the start of a text; `needDigits` asks for a digit after the
point. -/
def splitFraction (needDigits : Bool) (text : List Char) : List Char × List Char :=
  match text with
  | point :: rest =>
    if point = '.' && !(needDigits && (rest.takeWhile Char.isDigit).isEmpty) then
      (point :: rest.takeWhile Char.isDigit, rest.dropWhile Char.isDigit)
    else ([], text)
  | [] => ([], [])

/-- Splits an unsigned number off the start of a text.  The first part is empty if there is none. -/
def splitNumber (text : List Char) : List Char × List Char :=
  let whole := text.takeWhile Char.isDigit
  let (fraction, afterFraction) := splitFraction whole.isEmpty (text.dropWhile Char.isDigit)
  if whole.isEmpty && fraction.isEmpty then ([], text)
  else
    let (exponent, rest) := splitExponent afterFraction
    (whole ++ fraction ++ exponent, rest)

def splitToken (text : List Char) : Option (Token × List Char) :=
  match text with
  | [] => none
  | c :: rest =>
    if isWordStart c then some (.word (c :: rest.takeWhile isWordPart), rest.dropWhile isWordPart)
    else
      let (number, afterNumber) := splitNumber text
      if number.isEmpty then some (.symbol c, rest) else some (.digits number, afterNumber)

theorem split_gap_append (inComment : Bool) (text : List Char) :
    (splitGap inComment text).1 ++ (splitGap inComment text).2 = text := by
  induction text generalizing inComment with
  | nil => simp [splitGap]
  | cons c rest ih =>
    unfold splitGap
    split
    · simp [ih]
    · split
      · simp [ih]
      · split <;> simp [ih]

theorem split_sign_append (text : List Char) :
    (splitSign text).1 ++ (splitSign text).2 = text := by
  cases text with
  | nil => rfl
  | cons c rest => unfold splitSign; dsimp only; split <;> simp

theorem split_exponent_append (text : List Char) :
    (splitExponent text).1 ++ (splitExponent text).2 = text := by
  cases text with
  | nil => rfl
  | cons mark rest =>
    unfold splitExponent
    dsimp only
    split
    · have signed := split_sign_append rest
      simp [List.append_assoc, signed]
    · simp

theorem split_fraction_append (needDigits : Bool) (text : List Char) :
    (splitFraction needDigits text).1 ++ (splitFraction needDigits text).2 = text := by
  cases text with
  | nil => rfl
  | cons point rest => unfold splitFraction; dsimp only; split <;> simp

theorem split_number_append (text : List Char) :
    (splitNumber text).1 ++ (splitNumber text).2 = text := by
  unfold splitNumber
  dsimp only
  split
  · simp
  · have exponent := split_exponent_append
      (splitFraction (text.takeWhile Char.isDigit).isEmpty (text.dropWhile Char.isDigit)).2
    have fraction := split_fraction_append (text.takeWhile Char.isDigit).isEmpty
      (text.dropWhile Char.isDigit)
    simp [List.append_assoc, exponent, fraction]

/-- A token is what its text says, and it is not empty. -/
theorem split_token_append {text rest : List Char} {token : Token}
    (found : splitToken text = some (token, rest)) : token.text ++ rest = text ∧ token.text ≠ [] := by
  unfold splitToken at found
  split at found
  · simp at found
  · rename_i c after
    split at found
    · simp only [Option.some.injEq, Prod.mk.injEq] at found
      obtain ⟨rfl, rfl⟩ := found
      simp [Token.text]
    · dsimp only at found
      split at found
      · simp only [Option.some.injEq, Prod.mk.injEq] at found
        obtain ⟨rfl, rfl⟩ := found
        simp [Token.text]
      · rename_i number
        simp only [Option.some.injEq, Prod.mk.injEq] at found
        obtain ⟨rfl, rfl⟩ := found
        exact ⟨split_number_append _, by simpa [Token.text, List.isEmpty_iff] using number⟩

theorem split_token_length {text rest : List Char} {token : Token}
    (found : splitToken (splitGap false text).2 = some (token, rest)) : rest.length < text.length := by
  obtain ⟨whole, visible⟩ := split_token_append found
  have gap := congrArg List.length (split_gap_append false text)
  have token := congrArg List.length whole
  have := List.length_pos_iff.mpr visible
  simp only [List.length_append] at gap token
  omega

def scan (text : List Char) : Scan :=
  match _found : splitToken (splitGap false text).2 with
  | none => ⟨[], text⟩
  | some (token, rest) =>
    let others := scan rest
    ⟨⟨(splitGap false text).1, token⟩ :: others.pieces, others.trailing⟩
termination_by text.length
decreasing_by exact split_token_length _found

def Scan.text (scan : Scan) : List Char :=
  scan.pieces.foldr (fun piece rest => piece.leading ++ (piece.token.text ++ rest)) scan.trailing

/-- Scanning loses nothing. -/
theorem scan_text (text : List Char) : (scan text).text = text := by
  fun_induction scan text with
  | case1 text found => simp [Scan.text]
  | case2 text token rest found others ih =>
    obtain ⟨whole, _⟩ := split_token_append found
    have same : others.text = rest := ih
    unfold Scan.text at same ⊢
    simp only [List.foldr_cons]
    rw [same, whole, split_gap_append]

def Scan.lexemes (scan : Scan) : List Lexeme :=
  scan.pieces.map (fun piece => ⟨Gap.ofText piece.leading, piece.token⟩)

end PolicyLevers.Script
