import PolicyLevers.Proofs.CoveredTexts
import PolicyLevers.Proofs.JoinedScripts

/-!
# Labels of inspections

The label of an inspection is the text of its expression without blanks and comments.  Comments are looked
for in two ways: in front of each token when a script is split up, and line by line in the text of one
expression.  Both find the same in a text that was split into tokens.
-/

namespace PolicyLevers.Script

set_option autoImplicit false

open PolicyLevers.Script.Parser

def uncommented : List Char → List Char
  | [] => []
  | c :: rest => if c = '#' || (c = '/' && rest.head? = some '/') then [] else c :: uncommented rest

def compactLine (line : List Char) : List Char :=
  (uncommented line).filter (fun c => !Text.isBlank c)

def compactSource (text : List Char) : List Char :=
  let (first, others) := Text.splitAt '\n' text
  (first :: others).flatMap compactLine

/-- A text without comments and blanks, character by character; `inComment` tells that a comment is
open. -/
def compactFrom (inComment : Bool) : List Char → List Char
  | [] => []
  | c :: rest =>
    if inComment then compactFrom (c ≠ '\n') rest
    else if c = '#' || (c = '/' && rest.head? = some '/') then compactFrom true rest
    else if Text.isBlank c then compactFrom false rest
    else c :: compactFrom false rest

/-- A slash behind a character stands on the same line. -/
theorem second_slash_iff (text : List Char) :
    (Text.splitAt '\n' text).1.head? = some '/' ↔ text.head? = some '/' := by
  cases text with
  | nil => exact Iff.rfl
  | cons c rest =>
      by_cases line : c = '\n'
      · simp [Text.splitAt, line]
      · simp [Text.splitAt, line]

theorem compact_line_cons (c : Char) (rest : List Char) :
    compactLine (c :: rest) =
      if c = '#' || (c = '/' && rest.head? = some '/') then []
      else if Text.isBlank c then compactLine rest else c :: compactLine rest := by
  unfold compactLine
  rw [uncommented]
  split
  · rfl
  · rw [List.filter_cons]
    cases Text.isBlank c <;> rfl

/-- Going from character to character finds what going from line to line does.  Where a comment is open,
the rest of the first line is left out. -/
theorem compact_from_lines (text : List Char) :
    compactFrom true text = (Text.splitAt '\n' text).2.flatMap compactLine ∧
      compactFrom false text = compactSource text := by
  unfold compactSource
  induction text with
  | nil => exact ⟨rfl, rfl⟩
  | cons c rest induction =>
      obtain ⟨opened, closed⟩ := induction
      have slash := second_slash_iff rest
      simp only [Text.splitAt]
      generalize Text.splitAt '\n' rest = lines at *
      obtain ⟨first, others⟩ := lines
      dsimp only at *
      rw [List.flatMap_cons] at closed
      by_cases line : c = '\n'
      · subst line
        have blank : Text.isBlank '\n' = true := rfl
        have nothing : compactLine [] = [] := rfl
        simp [compactFrom, blank, nothing, closed]
      · rw [if_neg line]
        refine ⟨?_, ?_⟩
        · simp [compactFrom, line, opened]
        · rw [List.flatMap_cons, compact_line_cons, compactFrom]
          simp only [Bool.false_eq_true, if_false, slash, opened, closed]
          split
          · rfl
          · split <;> rfl

/-! ## Gaps and tokens -/

theorem compact_gap (inComment : Bool) (text : List Char) :
    compactFrom inComment text = compactFrom false (splitGap inComment text).2 := by
  induction text generalizing inComment with
  | nil => rfl
  | cons c rest induction =>
      cases inComment with
      | true => exact induction _
      | false =>
          simp only [splitGap, Bool.false_eq_true, if_false]
          by_cases space : isSpace c = true
          · obtain ⟨_, _, _, _, _, _, _, _, noSlash, noHash⟩ := space_parts space
            simp only [compactFrom, space, space_is_blank space, noSlash, noHash, Bool.false_eq_true,
              if_false, if_true, decide_false, Bool.false_and, Bool.or_self]
            exact induction false
          · by_cases comment : (c = '#' || (c = '/' && rest.head? = some '/')) = true
            · simp only [compactFrom, space, comment, Bool.false_eq_true, if_false, if_true]
              exact induction true
            · simp only [space, comment, Bool.false_eq_true, if_false]

theorem compact_visible {c : Char} {rest : List Char} (noBlank : Text.isBlank c = false)
    (noHash : c ≠ '#') (noSlashes : ¬(c = '/' ∧ rest.head? = some '/')) :
    compactFrom false (c :: rest) = c :: compactFrom false rest := by
  have noComment : (c = '#' || (c = '/' && rest.head? = some '/')) = false := by
    simpa [noHash] using noSlashes
  simp [compactFrom, noComment, noBlank]

theorem compact_parts {text : List Char} (parts : ∀ c ∈ text, endsToken c = false)
    (rest : List Char) : compactFrom false (text ++ rest) = text ++ compactFrom false rest := by
  induction text with
  | nil => rfl
  | cons c text induction =>
      have part := parts c List.mem_cons_self
      have noHash : c ≠ '#' := by
        rintro rfl
        cases part
      have noSlash : c ≠ '/' := by
        rintro rfl
        cases part
      rw [List.cons_append, compact_visible (part_visible part) noHash (fun slashes => noSlash slashes.1),
        induction (fun other member => parts other (List.mem_cons_of_mem _ member))]
      rfl

theorem inner_marks_visible : innerMarks.all (fun c => !Text.isBlank c) = true := by decide +kernel

theorem compact_token {text rest after : List Char} {token : Token}
    (found : splitToken text = some (token, after)) (inner : isInner token = true)
    (visible : Visible (token.text ++ rest)) :
    compactFrom false (token.text ++ rest) = token.text ++ compactFrom false rest := by
  rcases scanned_parts found with ⟨c, rfl⟩ | parts
  · obtain ⟨_, noHash, noSlashes⟩ := visible_cons_iff.mp visible
    have mark : c ∈ innerMarks := by simpa [isInner] using inner
    have noBlank : Text.isBlank c = false := by
      simpa using List.all_eq_true.mp inner_marks_visible c mark
    exact compact_visible noBlank noHash noSlashes
  · exact compact_parts parts rest

theorem compact_tokens {source : List Char} {inner behind : List Piece} {next : Piece}
    {trailing : List Char} (scanned : scan source = ⟨inner ++ next :: behind, trailing⟩)
    (all : ∀ piece ∈ inner, isInner piece.token = true) :
    compactFrom false (Scan.text ⟨inner, next.leading⟩) =
      inner.flatMap (fun piece => piece.token.text) := by
  induction inner generalizing source with
  | nil =>
      obtain ⟨rest, rfl, split, found, _⟩ := scan_cons scanned
      have present : next.token.text ++ rest ≠ [] := by simp [(split_token_append found).2]
      have alone : splitGap false (next.leading ++ []) = (next.leading, []) :=
        split_gap_swap split present rfl
      rw [List.append_nil] at alone
      change compactFrom false next.leading = []
      rw [compact_gap, alone]
      rfl
  | cons piece inner induction =>
      rw [List.cons_append] at scanned
      obtain ⟨rest, rfl, split, found, others⟩ := scan_cons scanned
      have later := induction others (fun other member => all other (List.mem_cons_of_mem _ member))
      have whole : rest = Scan.text ⟨inner, next.leading⟩ ++
          (next.token.text ++ Scan.text ⟨behind, trailing⟩) := by
        have same := scan_text rest
        rw [others, text_through] at same
        exact same.symm
      change compactFrom false (piece.leading ++
        (piece.token.text ++ Scan.text ⟨inner, next.leading⟩)) = _
      generalize Scan.text ⟨inner, next.leading⟩ = text at *
      have visible : Visible (piece.token.text ++ text) := by
        have seen := split_gap_visible_rest false (piece.leading ++ (piece.token.text ++ rest))
        rw [split, whole, ← List.append_assoc] at seen
        exact visible_front seen
      have present : piece.token.text ++ rest ≠ [] := by simp [(split_token_append found).2]
      have gap := split_gap_swap split present visible
      rw [compact_gap, gap, compact_token found (all piece List.mem_cons_self) visible, later]
      rfl

/-! ## Inspections in a script -/

section Yields

variable {α β : Type} {P : α → Prop}

/-- Whatever the parser finds is of one kind. -/
def Yields (parser : Parser α) (P : α → Prop) : Prop :=
  ∀ (tokens : List Lexeme) (value : α) (rest : List Lexeme), parser.Reads tokens value rest → P value

theorem pure_yields {value : α} (here : P value) : Yields (pure value) P := by
  intro tokens other rest found
  cases found
  exact here

theorem bind_yields {first : Parser β} {next : β → Parser α} (last : ∀ value, Yields (next value) P) :
    Yields (first >>= next) P := by
  intro tokens value rest found
  obtain ⟨start, middle, _, found⟩ := bind_reads_iff.mp found
  exact last start middle value rest found

theorem named_yields {part : Expectation} {parser : Parser α} (yields : Yields parser P) :
    Yields (named part parser) P := by
  intro tokens value rest found
  rw [Reads, named_outcome] at found
  exact yields tokens value rest found

end Yields

theorem first_of_found {α : Type} {choices : List (Parser α)} {tokens rest : List Lexeme} {value : α}
    (found : (firstOf choices).Reads tokens value rest) :
    ∃ parser ∈ choices, parser.Reads tokens value rest := by
  induction choices with
  | nil => cases found
  | cons parser choices induction =>
      change (orElse _ _ _).outcome = _ at found
      rw [or_else_outcome, Option.or_eq_some_iff] at found
      rcases found with own | ⟨_, later⟩
      · exact ⟨parser, List.mem_cons_self, own⟩
      · obtain ⟨other, member, reads⟩ := induction later
        exact ⟨other, List.mem_cons_of_mem _ member, reads⟩

def OtherThanInspection (form : StatementForm) : Prop := ∀ label value, form ≠ .inspect label value

theorem inspection_reads {parsers : Grammar.Level} {tokens rest : List Lexeme} {label : String}
    {value : Phrase} (found : (Grammar.anyForm parsers).Reads tokens (.inspect label value) rest) :
    (Grammar.inspect parsers).Reads tokens (.inspect label value) rest := by
  have definitions : Yields (Grammar.definition parsers) OtherThanInspection :=
    named_yields (bind_yields fun _ => bind_yields fun _ => bind_yields fun _ => bind_yields fun _ =>
      pure_yields (by simp [OtherThanInspection]))
  have limits : Yields (Grammar.limit parsers) OtherThanInspection :=
    named_yields (bind_yields fun _ => bind_yields fun _ => bind_yields fun _ => bind_yields fun _ =>
      bind_yields fun _ => bind_yields fun _ => bind_yields fun _ => bind_yields fun _ =>
        pure_yields (by simp [OtherThanInspection]))
  have distributions : Yields (Grammar.distribute parsers) OtherThanInspection :=
    named_yields (bind_yields fun _ => bind_yields fun _ => bind_yields fun _ => bind_yields fun _ =>
      bind_yields fun _ => bind_yields fun _ => bind_yields fun _ =>
        pure_yields (by simp [OtherThanInspection]))
  have changes : Yields (Grammar.change parsers) OtherThanInspection :=
    named_yields (bind_yields fun _ => bind_yields fun _ => bind_yields fun _ => bind_yields fun _ =>
      bind_yields fun _ => bind_yields fun _ => bind_yields fun _ => bind_yields fun _ =>
        pure_yields (by simp [OtherThanInspection]))
  have assignments : Yields (Grammar.assignment parsers) OtherThanInspection :=
    named_yields (bind_yields fun _ => bind_yields fun _ => bind_yields fun _ =>
      pure_yields (by simp [OtherThanInspection]))
  obtain ⟨parser, member, reads⟩ := first_of_found found
  simp only [List.mem_cons, List.not_mem_nil, or_false] at member
  rcases member with rfl | rfl | rfl | rfl | rfl | rfl
  · exact absurd rfl (definitions _ _ _ reads label value)
  · exact absurd rfl (limits _ _ _ reads label value)
  · exact absurd rfl (distributions _ _ _ reads label value)
  · exact absurd rfl (changes _ _ _ reads label value)
  · exact reads
  · exact absurd rfl (assignments _ _ _ reads label value)

/-- An inspection is its keyword and an expression; its label is the characters of that. -/
theorem inspection_parts {depth : Nat} {tokens rest : List Lexeme} {label : String} {value : Phrase}
    (short : tokens.length < depth)
    (found : (Grammar.anyForm (Grammar.level depth)).Reads tokens (.inspect label value) rest) :
    ∃ gap taken, tokens = ⟨gap, .word "inspect".toList⟩ :: (taken ++ rest) ∧
      (∀ lexeme ∈ taken, isInner lexeme.token = true) ∧
      label = String.ofList (taken.flatMap (fun lexeme => lexeme.token.text)) := by
  have reads := inspection_reads found
  unfold Reads Grammar.inspect at reads
  rw [named_outcome] at reads
  obtain ⟨_, middle, word, reads⟩ := bind_reads_iff.mp reads
  obtain ⟨⟨text, phrase⟩, last, expression, reads⟩ := bind_reads_iff.mp reads
  cases reads
  obtain ⟨gap, rfl⟩ := keyword_reads_iff.mp word
  unfold Reads at expression
  rw [with_text_outcome] at expression
  obtain ⟨⟨own, last⟩, expression, same⟩ := Option.map_eq_some_iff.mp expression
  cases same
  rw [List.length_cons] at short
  have phrases := (Grammar.levels_match (Grammar.moving []) (Nat.le_refl depth)).phrase
  obtain ⟨taken, rfl, _, balanced⟩ :=
    (phrases middle (Nat.lt_of_succ_lt short) (Or.inl rfl)).takes expression
  refine ⟨gap, taken, rfl, balanced.inner, ?_⟩
  simp

/-- The label of a statement, if it is an inspection, is the text of its expression in `source` without
blanks and comments. -/
def Statement.Labelled (source : List Char) (statement : Statement) : Prop :=
  ∀ label value, statement.kind = .inspect label value →
    ∃ gap expression, statement.span.Covers source ("inspect".toList ++ (gap ++ expression)) ∧
      splitGap false (gap ++ expression) = (gap, expression) ∧
      label = String.ofList (compactSource expression)

theorem inspection_pieces {source : List Char} {depth : Nat} {middle last : List Lexeme}
    {written : WrittenStatement} {label : String} {value : Phrase}
    (place : middle <:+ (scan source).lexemes) (short : middle.length < depth)
    (form : written.form = .inspect label value)
    (reads : (Grammar.statement (Grammar.level depth)).Reads middle written last) :
    ∃ front piece inner next behind,
      (scan source).pieces = front ++ piece :: (inner ++ next :: behind) ∧
      piece.token = .word "inspect".toList ∧ (∀ piece ∈ inner, isInner piece.token = true) ∧
      label = String.ofList (inner.flatMap (fun piece => piece.token.text)) ∧
      written.extent = ⟨inner.length + (behind.length + 1) + 1, behind.length + 1, true⟩ := by
  obtain ⟨gap, front, extent, _⟩ := Grammar.statement_takes short reads
  rw [form] at front extent
  obtain ⟨gap, taken, rfl, inner, label⟩ := inspection_parts short front
  obtain ⟨before, whole⟩ := place
  unfold Scan.lexemes at whole
  obtain ⟨frontPieces, _, pieces, _, rest⟩ := List.map_eq_append_iff.mp whole.symm
  obtain ⟨piece, _, rfl, word, others⟩ := List.map_eq_cons_iff.mp rest
  obtain ⟨innerPieces, _, rfl, rfl, ending⟩ := List.map_eq_append_iff.mp others
  obtain ⟨next, behind, rfl, _, rfl⟩ := List.map_eq_cons_iff.mp ending
  refine ⟨frontPieces, piece, innerPieces, next, behind, pieces, congrArg Lexeme.token word, ?_, ?_, ?_⟩
  · simpa using inner
  · rw [label, List.flatMap_map]
  · rw [extent]
    simp [Grammar.isSpaced]

/-- Every label is the text of the expression without blanks and comments, wherever these are. -/
theorem labels_are_compact {limit : Nat} {source : String} {statements : List Statement}
    (accepted : parse limit source = .ok statements) :
    ∀ statement ∈ statements, statement.Labelled source.toList := by
  obtain ⟨written, found, _, rfl⟩ := parse_ok_iff.mp accepted
  intro statement member
  obtain ⟨own, inside, rfl⟩ := List.mem_map.mp member
  intro label value kind
  obtain ⟨middle, last, place, reads⟩ := Grammar.read_each found own inside
  obtain ⟨phrase, form⟩ : ∃ phrase, own.form = .inspect label phrase := by
    change own.form.toKind = _ at kind
    cases same : own.form with
    | inspect text phrase =>
        rw [same] at kind
        cases kind
        exact ⟨phrase, rfl⟩
    | _ =>
        rw [same] at kind
        cases kind
  obtain ⟨front, piece, inner, next, behind, pieces, word, all, rfl, extent⟩ :=
    inspection_pieces place (Nat.lt_succ_of_le place.length_le) form reads
  have scanned : scan source.toList =
      ⟨front ++ piece :: (inner ++ next :: behind), (scan source.toList).trailing⟩ := by
    rw [← pieces]
  have covered := spaced_tokens_covered scanned
  rw [word, ← extent] at covered
  rw [List.append_cons] at scanned
  have compact := compact_tokens (scan_rest scanned) all
  rw [compact_gap] at compact
  have together := split_gap_append false (Scan.text ⟨inner, next.leading⟩)
  refine ⟨_, _, by rw [together]; exact covered, by rw [together], ?_⟩
  rw [← (compact_from_lines _).2, compact]

example : compactSource "a  // tonnes; per / year\n  +\t2 # and a reserve".toList = "a+2".toList := by
  decide

end PolicyLevers.Script
