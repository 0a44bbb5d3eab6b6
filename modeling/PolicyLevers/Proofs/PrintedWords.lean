import PolicyLevers.Proofs.ScriptPrinting

/-!
# The tokens of printed words

Every word of a printed script is read as tokens of its own, whatever word stands behind the blank
that follows it.  So the tokens of a printed script are those of its words, one after another.
-/

namespace PolicyLevers.Script

set_option autoImplicit false

/-! ## Words that can be written -/

theorem segment_word {word : List Char} (segment : isSegment word = true) :
    Spells word [.word word] ∧ IsWord word := by
  have spelled : Spells word [.word word] := by
    simpa using spells_segment segment (by simp) spells_nothing
  refine ⟨spelled, word_of_spells spelled (by simp) ?_⟩
  intro c member
  cases space : isSpace c with
  | false => rfl
  | true =>
      have parts := space_parts space
      cases word with
      | nil => cases member
      | cons first rest =>
          simp only [isSegment, Bool.and_eq_true, List.all_eq_true] at segment
          rcases List.mem_cons.mp member with same | later
          · rw [same, segment.1] at parts
            simp at parts
          · rw [segment.2 c later] at parts
            simp at parts

theorem spells_marks {word : List Char} (marks : word.all isMark = true) :
    Spells word (word.map Token.symbol) := by
  induction word with
  | nil => exact spells_nothing
  | cons c rest induction =>
      simp only [List.all_cons, Bool.and_eq_true] at marks
      exact spells_mark marks.1 (induction marks.2)

theorem marks_word {word : List Char} (marks : word.all isMark = true) (visible : word ≠ []) :
    IsWord word := by
  apply word_of_spells (spells_marks marks) (by simpa using visible)
  intro c member
  have mark := List.all_eq_true.mp marks c member
  simp only [isMark, Bool.and_eq_true, Bool.not_eq_true'] at mark
  exact mark.1.1.1.1.1

theorem spells_slash : Spells ['/'] [.symbol '/'] := spells_token rfl rfl spells_nothing

theorem slash_word : IsWord ['/'] :=
  word_of_spells spells_slash (List.cons_ne_nil _ _) (List.forall_mem_singleton.mpr rfl)

theorem split_at_join (mark : Char) (text : List Char) :
    (Text.splitAt mark text).1 ++ (Text.splitAt mark text).2.flatMap (List.cons mark) = text := by
  induction text with
  | nil => rfl
  | cons c rest induction =>
      unfold Text.splitAt
      dsimp only
      by_cases same : c = mark
      · simp [same, induction]
      · simp [same, induction]

theorem spells_name {first : List Char} {others : List (List Char)}
    (firstSegment : isSegment first = true) (segments : ∀ other ∈ others, isSegment other = true) :
    Spells (first ++ others.flatMap (List.cons '.'))
      (.word first :: others.flatMap (fun other => [.symbol '.', .word other])) := by
  induction others generalizing first with
  | nil => exact spells_segment firstSegment (by simp) spells_nothing
  | cons next others induction =>
      have nextSegment := segments next (by simp)
      have behind := induction nextSegment (by
        intro other member
        exact segments other (by simp [member]))
      have noDigits : (next ++ others.flatMap (List.cons '.')).takeWhile Char.isDigit = [] := by
        cases next with
        | nil => cases nextSegment
        | cons c rest =>
            simp only [isSegment, Bool.and_eq_true] at nextSegment
            simp [(word_start_parts nextSegment.1).2.1]
      exact spells_segment firstSegment (by simp; decide) (spells_point noDigits behind)

theorem segment_unbroken {segment : List Char} (valid : isSegment segment = true) :
    ∀ c ∈ segment, isSpace c = false := (segment_word valid).2.unbroken

/-- A dotted name is a word followed by points and words, the first of them no keyword. -/
theorem name_tokens {name : String} (valid : isName name = true) :
    ∃ (first : List Char) (others : List (List Char)),
      Grammar.keywords.contains (String.ofList first) = false ∧
        name.toList = first ++ others.flatMap (List.cons '.') ∧
        Spells name.toList (.word first :: others.flatMap (fun other => [.symbol '.', .word other])) ∧
        IsWord name.toList := by
  unfold isName at valid
  cases pieces : Text.splitAt '.' name.toList with
  | mk first others =>
      simp only [pieces, Bool.and_eq_true, Bool.not_eq_true', List.all_eq_true] at valid
      obtain ⟨⟨firstSegment, noKeyword⟩, segments⟩ := valid
      have whole := split_at_join '.' name.toList
      rw [pieces] at whole
      have spelled := spells_name firstSegment segments
      rw [whole] at spelled
      refine ⟨first, others, noKeyword, whole.symm, spelled, word_of_spells spelled (by simp) ?_⟩
      rw [← whole]
      intro c member
      simp only [List.mem_append, List.mem_flatMap, List.mem_cons] at member
      rcases member with inFirst | ⟨other, isOther, rfl | inOther⟩
      · exact segment_unbroken firstSegment c inFirst
      · rfl
      · exact segment_unbroken (segments other isOther) c inOther

/-- A literal is digits, perhaps with a sign in front, and its value is that of the two. -/
theorem literal_tokens {text : String} {value : Float} (literal : IsLiteral text value) :
    ∃ (sign : Option Char) (digits : List Char), (∀ c ∈ sign, c = '+' ∨ c = '-') ∧
      numberValue sign digits = value ∧
      Spells text.toList (sign.toList.map Token.symbol ++ [.digits digits]) ∧
      IsWord text.toList := by
  obtain ⟨numeral, read⟩ := literal
  obtain ⟨magnitude, numeral⟩ := Option.isSome_iff_exists.mp numeral
  by_cases signed : ∃ c rest, text.toList = c :: rest ∧ (c = '+' ∨ c = '-')
  · obtain ⟨c, digits, whole, mark⟩ := signed
    have split : (Decimal.splitSign text.toList).2 = digits := by
      rw [whole]
      rcases mark with rfl | rfl <;> rfl
    rw [split] at numeral
    have plain : isMark c = true := by rcases mark with rfl | rfl <;> decide
    have spelled : Spells text.toList [.symbol c, .digits digits] := by
      rw [whole]
      exact spells_mark plain (spells_numeral numeral)
    refine ⟨some c, digits, by simpa using mark, ?_, spelled, word_of_spells spelled (by simp) ?_⟩
    · simp [numberValue, ← whole, read]
    · rw [whole]
      intro other member
      rcases List.mem_cons.mp member with rfl | inside
      · rcases mark with rfl | rfl <;> rfl
      · exact numeral_unbroken numeral other inside
  · have split : (Decimal.splitSign text.toList).2 = text.toList := by
      cases whole : text.toList with
      | nil => rfl
      | cons c rest =>
          have noPlus : c ≠ '+' := by
            rintro rfl
            exact signed ⟨'+', rest, whole, Or.inl rfl⟩
          have noMinus : c ≠ '-' := by
            rintro rfl
            exact signed ⟨'-', rest, whole, Or.inr rfl⟩
          simp [Decimal.splitSign, noPlus, noMinus]
    rw [split] at numeral
    have spelled := spells_numeral numeral
    refine ⟨none, text.toList, by simp, ?_, spelled, word_of_spells spelled (by simp)
      (numeral_unbroken numeral)⟩
    simp [numberValue, read]

/-! ## Printed texts -/

def AreWords (words : List String) : Prop := ∀ word ∈ words, IsWord word.toList

theorem are_words_append {before after : List String} :
    AreWords (before ++ after) ↔ AreWords before ∧ AreWords after := List.forall_mem_append

theorem are_words_cons {word : String} {words : List String} :
    AreWords (word :: words) ↔ IsWord word.toList ∧ AreWords words := List.forall_mem_cons

/-- Spelled like a keyword, or with marks only. -/
def isFixed (word : String) : Bool :=
  isSegment word.toList || (word.toList.all isMark && !word.toList.isEmpty)

theorem fixed_are_words {words : List String} (fixed : words.all isFixed = true) :
    AreWords words := by
  intro word member
  have shape := List.all_eq_true.mp fixed word member
  simp only [isFixed, Bool.or_eq_true, Bool.and_eq_true, Bool.not_eq_true',
    List.isEmpty_eq_false_iff] at shape
  rcases shape with segment | ⟨marks, visible⟩
  · exact (segment_word segment).2
  · exact marks_word marks visible

theorem listed_cons (first : List String) (others : List (List String)) :
    listed (first :: others) = first ++ others.flatMap (List.cons ",") := by
  unfold listed
  induction others generalizing first with
  | nil => simp
  | cons next others induction =>
      rw [List.intercalate_cons_cons, induction]
      simp

theorem listed_are_words {items : List (List String)} (words : ∀ item ∈ items, AreWords item) :
    AreWords (listed items) := by
  cases items with
  | nil => simp [listed, AreWords]
  | cons first others =>
      rw [listed_cons]
      refine are_words_append.mpr ⟨words first (by simp), ?_⟩
      intro word member
      obtain ⟨item, isItem, inside⟩ := List.mem_flatMap.mp member
      rcases List.mem_cons.mp inside with rfl | inItem
      · exact marks_word rfl (by decide)
      · exact words item (by simp [isItem]) word inItem

theorem fixed_is_word {word : String} (fixed : isFixed word = true) : IsWord word.toList :=
  fixed_are_words (by simpa using fixed : [word].all isFixed = true) word (by simp)

theorem operator_is_word (op : BinaryOp) : AreWords [op.word] := by
  cases op with
  | div =>
      intro word member
      rw [List.mem_singleton.mp member]
      exact slash_word
  | add => exact fixed_are_words rfl
  | sub => exact fixed_are_words rfl
  | mul => exact fixed_are_words rfl
  | pow => exact fixed_are_words rfl

theorem name_is_word {name : String} (valid : isName name = true) : IsWord name.toList := by
  obtain ⟨_, _, _, _, _, word⟩ := name_tokens valid
  exact word

theorem word_then {word : String} {words : List String} (first : IsWord word.toList)
    (others : AreWords words) : AreWords (word :: words) := are_words_cons.mpr ⟨first, others⟩

theorem single_is_word {word : String} : AreWords [word] ↔ IsWord word.toList :=
  List.forall_mem_singleton

theorem enclosed_are_words (expr : Expr) {words : List String} (inner : AreWords words) :
    AreWords (expr.enclosed words) := by
  unfold Expr.enclosed
  split
  · rw [are_words_append, are_words_append]
    exact ⟨⟨fixed_are_words rfl, inner⟩, fixed_are_words rfl⟩
  · exact inner

theorem comparison_is_word (test : Comparison) : AreWords [test.word] := by
  cases test <;> exact fixed_are_words rfl

theorem reducer_is_word (reducer : Reducer) : AreWords [reducer.word] := by
  cases reducer <;> exact fixed_are_words rfl

theorem split_is_word (split : Split) : IsWord split.word.toList := by
  cases split <;> exact fixed_is_word rfl

theorem Expr.words_are_words {literal : Float → String} {expr : Expr}
    (printable : expr.Printable literal) : AreWords (expr.words literal) := by
  induction expr with
  | number value =>
      obtain ⟨_, _, _, _, _, word⟩ := literal_tokens printable
      exact single_is_word.mpr word
  | path text => exact single_is_word.mpr (name_is_word printable)
  | binary op left right leftWords rightWords =>
      have lefts := enclosed_are_words left (leftWords printable.1)
      have rights := enclosed_are_words right (rightWords printable.2)
      simp only [words, are_words_append]
      exact ⟨⟨lefts, operator_is_word op⟩, rights⟩
  | conditional test left right consequent alternative leftWords rightWords consequentWords
      alternativeWords =>
      obtain ⟨leftPrintable, rightPrintable, consequentPrintable, alternativePrintable⟩ := printable
      have lefts := enclosed_are_words left (leftWords leftPrintable)
      have rights := enclosed_are_words right (rightWords rightPrintable)
      have consequents := enclosed_are_words consequent (consequentWords consequentPrintable)
      have alternatives := enclosed_are_words alternative (alternativeWords alternativePrintable)
      simp only [words, are_words_append]
      exact ⟨⟨⟨⟨⟨⟨consequents, fixed_are_words rfl⟩, lefts⟩, comparison_is_word test⟩, rights⟩,
        fixed_are_words rfl⟩, alternatives⟩
  | lifecycle paths =>
      have names : AreWords (listed (paths.map (fun path => [path]))) := by
        apply listed_are_words
        intro item member
        obtain ⟨path, isPath, rfl⟩ := List.mem_map.mp member
        exact single_is_word.mpr (name_is_word (printable.2 path isPath))
      simp only [words, are_words_append]
      exact ⟨⟨fixed_are_words rfl, names⟩, fixed_are_words rfl⟩
  | uniform low high lowWords highWords =>
      have lows := enclosed_are_words low (lowWords printable.1)
      have highs := enclosed_are_words high (highWords printable.2)
      simp only [words, are_words_append]
      exact ⟨⟨⟨fixed_are_words rfl, lows⟩, fixed_are_words rfl⟩, highs⟩
  | normal mean deviation meanWords deviationWords =>
      have means := enclosed_are_words mean (meanWords printable.1)
      have deviations := enclosed_are_words deviation (deviationWords printable.2)
      simp only [words, are_words_append]
      exact ⟨⟨⟨fixed_are_words rfl, means⟩, fixed_are_words rfl⟩, deviations⟩
  | repeated reducer count body countWords bodyWords =>
      have counts := enclosed_are_words count (countWords printable.1)
      have bodies := enclosed_are_words body (bodyWords printable.2)
      simp only [words, are_words_append]
      exact ⟨⟨⟨reducer_is_word reducer, counts⟩, fixed_are_words rfl⟩, bodies⟩

theorem Expr.part_words_are_words {literal : Float → String} {expr : Expr}
    (printable : expr.Printable literal) : AreWords (expr.partWords literal) :=
  enclosed_are_words expr (expr.words_are_words printable)

theorem Target.words_are_words {literal : Float → String} {target : Target}
    (printable : target.Printable literal) : AreWords (target.words literal) := by
  obtain ⟨place, weight⟩ := target
  obtain ⟨name, weights⟩ := printable
  cases weight with
  | none => exact single_is_word.mpr (name_is_word name)
  | some weight =>
      have weightWords := weight.part_words_are_words (weights weight rfl)
      exact word_then (name_is_word name) (word_then (fixed_is_word rfl) weightWords)

theorem bound_words_are_words {literal : Float → String} {bound : Option Expr}
    (printable : ∀ expr ∈ bound, expr.Printable literal) :
    AreWords (bound.toList.flatMap (Expr.words literal)) := by
  cases bound with
  | none => simp [AreWords]
  | some expr => simpa using expr.words_are_words (printable expr rfl)

theorem StatementKind.words_are_words {literal : Float → String} {statement : StatementKind}
    (printable : statement.Printable literal) : AreWords (statement.words literal) := by
  cases statement with
  | definition name value =>
      have values := value.words_are_words printable.2
      simp only [words, are_words_append]
      have opening : AreWords ["var", name, "="] := word_then (fixed_is_word rfl)
        (word_then (name_is_word printable.1) (fixed_are_words rfl))
      exact ⟨⟨opening, values⟩, fixed_are_words rfl⟩
  | assignment target value =>
      have values := value.words_are_words printable.2
      simp only [words, are_words_append]
      have opening : AreWords [target, "="] :=
        word_then (name_is_word printable.1) (fixed_are_words rfl)
      exact ⟨⟨opening, values⟩, fixed_are_words rfl⟩
  | limit target lower upper =>
      obtain ⟨name, lowerPrintable, upperPrintable⟩ := printable
      have lowers := bound_words_are_words lowerPrintable
      have uppers := bound_words_are_words upperPrintable
      simp only [words, are_words_append]
      have opening : AreWords ["limit", target, "to", "["] := word_then (fixed_is_word rfl)
        (word_then (name_is_word name) (fixed_are_words rfl))
      exact ⟨⟨⟨⟨opening, lowers⟩, fixed_are_words rfl⟩, uppers⟩, fixed_are_words rfl⟩
  | distribute value targets split =>
      obtain ⟨valuePrintable, _, targetsPrintable⟩ := printable
      have values := value.words_are_words valuePrintable
      have places : AreWords (listed (targets.map (Target.words literal))) := by
        apply listed_are_words
        intro item member
        obtain ⟨target, isTarget, rfl⟩ := List.mem_map.mp member
        exact target.words_are_words (targetsPrintable target isTarget)
      simp only [words, are_words_append]
      have closing : AreWords ["]", split.word, ";"] := word_then (fixed_is_word rfl)
        (word_then (split_is_word split) (fixed_are_words rfl))
      exact ⟨⟨⟨⟨fixed_are_words rfl, values⟩, fixed_are_words rfl⟩, places⟩, closing⟩
  | change target delta start finish =>
      obtain ⟨name, deltaPrintable, startPrintable, finishPrintable⟩ := printable
      have deltas := delta.part_words_are_words deltaPrintable
      have starts := start.part_words_are_words startPrintable
      have finishes := finish.part_words_are_words finishPrintable
      simp only [words, are_words_append]
      have opening : AreWords ["change", target, "by"] := word_then (fixed_is_word rfl)
        (word_then (name_is_word name) (fixed_are_words rfl))
      exact ⟨⟨⟨⟨⟨⟨opening, deltas⟩, fixed_are_words rfl⟩, starts⟩, fixed_are_words rfl⟩, finishes⟩,
        fixed_are_words rfl⟩
  | inspect label value =>
      have values := value.words_are_words printable
      simp only [words, are_words_append]
      exact ⟨⟨fixed_are_words rfl, values⟩, fixed_are_words rfl⟩

/-! ## The tokens of a text of words -/

/-- The tokens of words with blanks between them, the first behind a gap. -/
def lexemesOf (gap : Gap) : List String → List Lexeme
  | [] => []
  | word :: words => glued gap (tokensOf word.toList) ++ lexemesOf .blank words

theorem lexemes_of_spells {word : String} {tokens : List Token} (spelled : Spells word.toList tokens)
    (gap : Gap) (words : List String) :
    lexemesOf gap (word :: words) = glued gap tokens ++ lexemesOf .blank words := by
  rw [lexemesOf, tokens_of_spells spelled]

theorem lexemes_append (before after : List String) :
    lexemesOf .blank (before ++ after) = lexemesOf .blank before ++ lexemesOf .blank after := by
  induction before with
  | nil => rfl
  | cons word before induction =>
      rw [List.cons_append, lexemesOf, induction, lexemesOf, List.append_assoc]

theorem lexemes_flat (words : List String) :
    lexemesOf .blank words = words.flatMap (fun word => glued .blank (tokensOf word.toList)) := by
  induction words with
  | nil => rfl
  | cons word words induction => rw [lexemesOf, induction, List.flatMap_cons]

theorem spaced_cons (first : String) (others : List String) :
    (spaced (first :: others)).toList =
      first.toList ++ (others.map String.toList).flatMap (List.cons ' ') := by
  rw [spaced, String.toList_intercalate]
  induction others generalizing first with
  | nil => simp
  | cons next others induction =>
      rw [List.map_cons, List.map_cons, List.intercalate_cons_cons, ← List.map_cons, induction]
      simp

theorem spaced_lexemes {words : List String} (valid : AreWords words) :
    (scan (spaced words).toList).lexemes = lexemesOf .none words := by
  cases words with
  | nil =>
      have empty : scan (spaced []).toList = ⟨[], (spaced []).toList⟩ := scan_nothing rfl
      rw [empty]
      rfl
  | cons first others =>
      obtain ⟨firstWord, otherWords⟩ := are_words_cons.mp valid
      rw [spaced_cons, words_lexemes _ _ firstWord (by simpa [AreWords] using otherWords), lexemesOf,
        lexemes_flat, List.flatMap_map]

theorem lexemes_length {words : List String} (valid : AreWords words) (gap : Gap) :
    words.length ≤ (lexemesOf gap words).length := by
  induction words generalizing gap with
  | nil => simp
  | cons word words induction =>
      obtain ⟨own, others⟩ := are_words_cons.mp valid
      have rest := induction others .blank
      cases tokens : tokensOf word.toList with
      | nil => exact absurd tokens own.visible
      | cons token more =>
          simp only [lexemesOf, tokens, glued, List.cons_append, List.length_cons, List.length_append]
          omega

theorem placed_text (tokens : List Token) :
    Scan.text ⟨placed [] tokens, []⟩ = tokens.flatMap Token.text := by
  have same : placed [] tokens = tokens.map (Piece.mk []) := by cases tokens <;> rfl
  rw [same]
  unfold Scan.text
  induction tokens with
  | nil => rfl
  | cons token tokens induction =>
      have others := induction (by cases tokens <;> rfl)
      simp only [List.map_cons, List.foldr_cons, List.nil_append, List.flatMap_cons, others]

theorem word_text {word : List Char} (valid : IsWord word) :
    (tokensOf word).flatMap Token.text = word := by
  have whole := scan_text word
  rw [valid.spelled] at whole
  exact (placed_text _).symm.trans whole

theorem glued_text (gap : Gap) (tokens : List Token) :
    (glued gap tokens).flatMap (fun lexeme => lexeme.token.text) = tokens.flatMap Token.text := by
  cases tokens with
  | nil => rfl
  | cons token tokens => simp [glued, List.flatMap_map]

theorem lexemes_text {words : List String} (valid : AreWords words) :
    String.ofList ((lexemesOf .blank words).flatMap (fun lexeme => lexeme.token.text)) =
      String.ofList ((spaced words).toList.filter (fun c => !isSpace c)) := by
  have tokens : (lexemesOf .blank words).flatMap (fun lexeme => lexeme.token.text) =
      words.flatMap String.toList := by
    induction words with
    | nil => rfl
    | cons word words induction =>
        obtain ⟨own, others⟩ := are_words_cons.mp valid
        rw [lexemesOf, List.flatMap_append, glued_text, word_text own, induction others,
          List.flatMap_cons]
  have blanks : (spaced words).toList.filter (fun c => !isSpace c) = words.flatMap String.toList := by
    have visible : ∀ word ∈ words, word.toList.filter (fun c => !isSpace c) = word.toList := by
      intro word member
      rw [List.filter_eq_self]
      intro c inside
      rw [(valid word member).unbroken c inside]
      rfl
    cases words with
    | nil => rfl
    | cons first others =>
        have same : others.map (fun word => (' ' :: word.toList).filter (fun c => !isSpace c)) =
            others.map String.toList := by
          apply List.map_congr_left
          intro word member
          have blank : isSpace ' ' = true := rfl
          simp [blank, visible word (by simp [member])]
        rw [spaced_cons, List.filter_append, visible first (by simp), List.filter_flatMap,
          List.flatMap_map, List.flatMap_def, same, List.flatMap_cons, List.flatMap_def]
  rw [tokens, blanks]

end PolicyLevers.Script
