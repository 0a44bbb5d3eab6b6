import PolicyLevers.Proofs.NestingHeight
import PolicyLevers.Proofs.ParserRules
import PolicyLevers.Proofs.PrintedWords

/-!
# Printed expressions are read back

The grammar reads the printed form of an expression as that expression, whatever words follow, as long
as they do not carry the expression on.  An expression printed as part of another one is an operand, in
parentheses if need be; one that stands alone is a phrase.
-/

namespace PolicyLevers.Script

set_option autoImplicit false

open PolicyLevers.Script.Parser

/-! ## Single words -/

theorem apart_lexemes (words : List String) : Apart (lexemesOf .blank words) := by
  induction words with
  | nil => simp [Apart, lexemesOf]
  | cons word words induction =>
      rw [lexemesOf]
      cases tokensOf word.toList with
      | nil => exact induction
      | cons token tokens => simp [Apart, glued]

theorem first_token_of_spells {word : String} {token : Token} {tokens : List Token}
    (spelled : Spells word.toList (token :: tokens)) (gap : Gap) (words : List String) :
    firstToken (lexemesOf gap (word :: words)) = some token := by
  rw [lexemes_of_spells spelled]
  rfl

theorem keyword_first {word : String} (segment : isSegment word.toList = true) (gap : Gap)
    (words : List String) :
    firstToken (lexemesOf gap (word :: words)) = some (.word word.toList) :=
  first_token_of_spells (segment_word segment).1 gap words

theorem mark_first {word : String} {c : Char} (same : word.toList = [c]) (mark : isMark c = true)
    (gap : Gap) (words : List String) :
    firstToken (lexemesOf gap (word :: words)) = some (.symbol c) := by
  have spelled : Spells word.toList [.symbol c] := by
    rw [same]
    exact spells_mark mark spells_nothing
  exact first_token_of_spells spelled gap words

theorem word_reads {word : String} (segment : isSegment word.toList = true) (gap : Gap)
    (words : List String) :
    (keyword word).Reads (lexemesOf gap (word :: words)) () (lexemesOf .blank words) := by
  rw [lexemes_of_spells (segment_word segment).1]
  exact keyword_reads word gap _

theorem mark_reads {word : String} {c : Char} (same : word.toList = [c]) (mark : isMark c = true)
    (gap : Gap) (words : List String) :
    (symbol c).Reads (lexemesOf gap (word :: words)) () (lexemesOf .blank words) := by
  have spelled : Spells word.toList [.symbol c] := by
    rw [same]
    exact spells_mark mark spells_nothing
  rw [lexemes_of_spells spelled]
  exact symbol_reads c gap _

/-- A word and what else stands in front of the other words takes a token at least. -/
theorem lexemes_shorter {word : String} (own : IsWord word.toList) (gap : Gap)
    (before after : List String) :
    (lexemesOf .blank after).length < (lexemesOf gap (word :: (before ++ after))).length := by
  cases tokens : tokensOf word.toList with
  | nil => exact absurd tokens own.visible
  | cons token others =>
      simp only [lexemesOf, tokens, glued, lexemes_append, List.cons_append, List.length_cons,
        List.length_append]
      omega

theorem further_words_repeat (others : List (List Char)) {rest : List Lexeme} (apart : Apart rest) :
    Repeats Grammar.furtherWord
      ((others.flatMap (fun other => [Token.symbol '.', .word other])).map (Lexeme.mk .none) ++ rest)
      (others.map (List.cons '.')) rest := by
  induction others with
  | nil => exact .stop (bind_misses _ (touching_misses apart))
  | cons other others induction =>
      refine .more ?_ ?_ induction
      · refine bind_reads (touching_reads '.' _) (bind_reads (token_reads _ rfl) ?_)
        exact pure_reads _ _
      · simp only [List.flatMap_cons, List.map_append, List.append_assoc, List.length_append,
          List.length_map]
        exact Nat.lt_add_of_pos_left (Nat.succ_pos _)

theorem leading_word_reads {first : List Char}
    (noKeyword : Grammar.keywords.contains (String.ofList first) = false) (gap : Gap)
    (rest : List Lexeme) : Grammar.leadingWord.Reads (⟨gap, .word first⟩ :: rest) first rest :=
  token_reads rest (by simp only [noKeyword, Bool.false_eq_true, if_false])

theorem identifier_reads {name : String} (valid : isName name = true) (gap : Gap)
    (words : List String) :
    Grammar.identifier.Reads (lexemesOf gap (name :: words)) name (lexemesOf .blank words) := by
  obtain ⟨first, others, noKeyword, whole, spelled, _⟩ := name_tokens valid
  have repeated := further_words_repeat others (apart_lexemes words)
  have value : String.ofList (first ++ (others.map (List.cons '.')).flatten) = name := by
    rw [← List.flatMap_def, ← whole, String.ofList_toList]
  rw [lexemes_of_spells spelled]
  refine named_reads (bind_reads (leading_word_reads noKeyword gap _)
    (bind_reads (many_reads repeated) ?_))
  rw [← value]
  exact pure_reads _ _

theorem name_first {name : String} (valid : isName name = true) (gap : Gap) (words : List String) :
    ∃ first, Grammar.keywords.contains (String.ofList first) = false ∧
      firstToken (lexemesOf gap (name :: words)) = some (.word first) := by
  obtain ⟨first, others, noKeyword, _, spelled, _⟩ := name_tokens valid
  exact ⟨first, noKeyword, first_token_of_spells spelled gap words⟩

/-! ## Operands without parts -/

/-- The operand stands for the expression, and no comment breaks a number in it. -/
def Operand.Means (operand : Operand) (expr : Expr) : Prop :=
  operand.toExpr = expr ∧ operand.Unbroken

theorem sign_reads {c : Char} (mark : c = '+' ∨ c = '-') (gap : Gap) (rest : List Lexeme) :
    Grammar.sign.Reads (⟨gap, .symbol c⟩ :: rest) c rest := by
  rcases mark with rfl | rfl <;> rfl

theorem sign_misses {tokens : List Lexeme} (noPlus : firstToken tokens ≠ some (.symbol '+'))
    (noMinus : firstToken tokens ≠ some (.symbol '-')) : Grammar.sign.Misses tokens :=
  named_misses (or_else_misses (bind_misses _ (symbol_misses noPlus))
    (bind_misses _ (symbol_misses noMinus)))

theorem digits_reads (gap : Gap) (text : List Char) (rest : List Lexeme) :
    Grammar.digits.Reads (⟨gap, .digits text⟩ :: rest) (gap, text) rest :=
  named_reads (token_reads rest rfl)

theorem number_reads {text : String} {value : Float} (literal : IsLiteral text value) (gap : Gap)
    (words : List String) :
    ∃ operand, Grammar.number.Reads (lexemesOf gap (text :: words)) operand (lexemesOf .blank words) ∧
      operand.Means (.number value) := by
  obtain ⟨sign, digits, marks, same, spelled, _⟩ := literal_tokens literal
  rw [lexemes_of_spells spelled]
  cases sign with
  | none =>
      have unsigned : Grammar.sign.Misses (⟨gap, .digits digits⟩ :: lexemesOf .blank words) :=
        sign_misses (by simp [firstToken]) (by simp [firstToken])
      refine ⟨.number _ none digits, named_reads (bind_reads (ahead_reads _)
        (bind_reads (optional_reads_none unsigned) (bind_reads (digits_reads gap digits _)
          (bind_reads (ahead_reads _) (pure_reads _ _))))), ?_, ?_⟩
      · exact congrArg Expr.number same
      · simp [Operand.Unbroken]
  | some c =>
      have signed := sign_reads (marks c rfl) gap
      refine ⟨.number _ (some (c, .none)) digits, named_reads (bind_reads (ahead_reads _)
        (bind_reads (optional_reads (signed _)) (bind_reads (digits_reads .none digits _)
          (bind_reads (ahead_reads _) (pure_reads _ _))))), ?_, ?_⟩
      · exact congrArg Expr.number same
      · simp [Operand.Unbroken]

def Token.opensNoNumber : Token → Bool
  | .word _ => true
  | .digits _ => false
  | .symbol c => c ≠ '+' && c ≠ '-'

theorem number_misses {tokens : List Lexeme}
    (other : ∀ token ∈ firstToken tokens, token.opensNoNumber = true) :
    Grammar.number.Misses tokens := by
  have unsigned : Grammar.sign.Misses tokens := by
    apply sign_misses
    · intro plus
      have refused := other _ plus
      cases refused
    · intro minus
      have refused := other _ minus
      cases refused
  have noDigits : Grammar.digits.Misses tokens := by
    apply named_misses
    apply token_misses
    intro lexeme head
    have refused := other _ (first_token_of_head head)
    cases token : lexeme.token with
    | digits text =>
        rw [token] at refused
        cases refused
    | word text => rfl
    | symbol c => rfl
  exact named_misses (bind_misses_later (ahead_reads _)
    (bind_misses_later (optional_reads_none unsigned) (bind_misses _ noDigits)))

/-! ## Which operand is tried -/

section Alternatives

variable {tokens rest : List Lexeme} {operand : Parser Operand} {phrase : Parser Phrase}

theorem keyword_differs {text : List Char} (first : firstToken tokens = some (.word text))
    (noKeyword : Grammar.keywords.contains (String.ofList text) = false) :
    ∀ spelling ∈ Grammar.keywords, firstToken tokens ≠ some (.word spelling.toList) := by
  intro spelling member same
  rw [first] at same
  simp only [Option.some.injEq, Token.word.injEq] at same
  rw [same, String.ofList_toList, List.contains_iff_mem.mpr member] at noKeyword
  cases noKeyword

theorem number_misses_word {text : List Char} (first : firstToken tokens = some (.word text)) :
    Grammar.number.Misses tokens := by
  apply number_misses
  intro token same
  rw [first] at same
  cases same
  rfl

/-- A part of the grammar that starts with a keyword is not found without it. -/
theorem led_misses {α : Type} {part : Expectation} {spelling : String} {next : Nat → Unit → Parser α}
    (other : firstToken tokens ≠ some (.word spelling.toList)) :
    (named part (ahead >>= fun start => keyword spelling >>= next start)).Misses tokens :=
  named_misses (bind_misses_later (ahead_reads _) (bind_misses _ (keyword_misses other)))

theorem lifecycle_misses (other : firstToken tokens ≠ some (.word "lifecycle".toList)) :
    Grammar.lifecycle.Misses tokens := led_misses other

theorem uniform_misses (other : firstToken tokens ≠ some (.word "draw".toList)) :
    (Grammar.uniform operand).Misses tokens := led_misses other

theorem normal_misses (other : firstToken tokens ≠ some (.word "draw".toList)) :
    (Grammar.normal operand).Misses tokens := led_misses other

theorem repetition_misses
    (others : ∀ reducer : Reducer, firstToken tokens ≠ some (.word reducer.word.toList)) :
    (Grammar.repetition operand phrase).Misses tokens := by
  have noReducer : Grammar.reducer.Misses tokens :=
    or_else_misses (bind_misses _ (keyword_misses (others .sum)))
      (or_else_misses (bind_misses _ (keyword_misses (others .product)))
        (or_else_misses (bind_misses _ (keyword_misses (others .average))) (fail_misses _)))
  exact named_misses (bind_misses_later (ahead_reads _) (bind_misses _ noReducer))

theorem group_misses (other : firstToken tokens ≠ some (.symbol '(')) :
    (Grammar.group phrase).Misses tokens :=
  named_misses (bind_misses_later (ahead_reads _) (bind_misses _ (symbol_misses other)))

theorem identifier_misses (other : ∀ text, firstToken tokens ≠ some (.word text)) :
    Grammar.identifier.Misses tokens := by
  apply named_misses
  apply bind_misses
  apply token_misses
  intro lexeme head
  cases token : lexeme.token with
  | word text =>
      rw [first_token_of_head head, token] at other
      exact absurd rfl (other text)
  | digits text => rfl
  | symbol c => rfl

theorem path_misses (other : ∀ text, firstToken tokens ≠ some (.word text)) :
    Grammar.path.Misses tokens :=
  bind_misses_later (ahead_reads _) (bind_misses _ (identifier_misses other))

theorem operand_misses_mark {c : Char} (first : firstToken tokens = some (.symbol c))
    (noSign : (c ≠ '+' && c ≠ '-') = true) (noParenthesis : c ≠ '(') :
    (Grammar.operandOf operand phrase).Misses tokens := by
  have noNumber : Grammar.number.Misses tokens := by
    apply number_misses
    intro token same
    rw [first] at same
    cases same
    exact noSign
  have noRepetition : (Grammar.repetition operand phrase).Misses tokens :=
    repetition_misses (by simp [first])
  apply or_else_misses noNumber
  apply or_else_misses (lifecycle_misses (by simp [first]))
  apply or_else_misses (uniform_misses (by simp [first]))
  apply or_else_misses (normal_misses (by simp [first]))
  apply or_else_misses noRepetition
  apply or_else_misses (group_misses (by simp [first, noParenthesis]))
  apply or_else_misses (path_misses (by simp [first]))
  exact fail_misses _

/-- An operand that starts with a word other than a keyword is a path. -/
theorem operand_reads_path {text : List Char} {value : Operand}
    (first : firstToken tokens = some (.word text))
    (noKeyword : Grammar.keywords.contains (String.ofList text) = false)
    (found : Grammar.path.Reads tokens value rest) :
    (Grammar.operandOf operand phrase).Reads tokens value rest := by
  have differs := keyword_differs first noKeyword
  have noRepetition : (Grammar.repetition operand phrase).Misses tokens := by
    apply repetition_misses
    intro reducer
    exact differs _ (by cases reducer <;> decide)
  apply or_else_reads_second (number_misses_word first)
  apply or_else_reads_second (lifecycle_misses (differs _ (by decide)))
  apply or_else_reads_second (uniform_misses (differs _ (by decide)))
  apply or_else_reads_second (normal_misses (differs _ (by decide)))
  apply or_else_reads_second noRepetition
  apply or_else_reads_second (group_misses (by simp [first]))
  exact or_else_reads_first _ found

theorem operand_reads_group {value : Operand} (first : firstToken tokens = some (.symbol '('))
    (found : (Grammar.group phrase).Reads tokens value rest) :
    (Grammar.operandOf operand phrase).Reads tokens value rest := by
  have noNumber : Grammar.number.Misses tokens := by
    apply number_misses
    intro token same
    rw [first] at same
    cases same
    rfl
  apply or_else_reads_second noNumber
  apply or_else_reads_second (lifecycle_misses (by simp [first]))
  apply or_else_reads_second (uniform_misses (by simp [first]))
  apply or_else_reads_second (normal_misses (by simp [first]))
  apply or_else_reads_second (repetition_misses (by simp [first]))
  exact or_else_reads_first _ found

theorem operand_reads_lifecycle {value : Operand}
    (first : firstToken tokens = some (.word "lifecycle".toList))
    (found : Grammar.lifecycle.Reads tokens value rest) :
    (Grammar.operandOf operand phrase).Reads tokens value rest :=
  or_else_reads_second (number_misses_word first) (or_else_reads_first _ found)

theorem operand_reads_uniform {value : Operand}
    (first : firstToken tokens = some (.word "draw".toList))
    (found : (Grammar.uniform operand).Reads tokens value rest) :
    (Grammar.operandOf operand phrase).Reads tokens value rest := by
  apply or_else_reads_second (number_misses_word first)
  apply or_else_reads_second (lifecycle_misses (by rw [first]; decide))
  exact or_else_reads_first _ found

theorem operand_reads_normal {value : Operand}
    (first : firstToken tokens = some (.word "draw".toList))
    (missed : (Grammar.uniform operand).Misses tokens)
    (found : (Grammar.normal operand).Reads tokens value rest) :
    (Grammar.operandOf operand phrase).Reads tokens value rest := by
  apply or_else_reads_second (number_misses_word first)
  apply or_else_reads_second (lifecycle_misses (by rw [first]; decide))
  apply or_else_reads_second missed
  exact or_else_reads_first _ found

theorem operand_reads_repetition {reducer : Reducer} {value : Operand}
    (first : firstToken tokens = some (.word reducer.word.toList))
    (found : (Grammar.repetition operand phrase).Reads tokens value rest) :
    (Grammar.operandOf operand phrase).Reads tokens value rest := by
  have differs (spelling : String) (other : spelling ≠ reducer.word) :
      firstToken tokens ≠ some (.word spelling.toList) := by
    intro same
    rw [first] at same
    have letters : reducer.word.toList = spelling.toList := by simpa using same
    exact other (String.toList_inj.mp letters.symm)
  apply or_else_reads_second (number_misses_word first)
  apply or_else_reads_second (lifecycle_misses (differs _ (by cases reducer <;> decide)))
  apply or_else_reads_second (uniform_misses (differs _ (by cases reducer <;> decide)))
  apply or_else_reads_second (normal_misses (differs _ (by cases reducer <;> decide)))
  exact or_else_reads_first _ found

end Alternatives

/-! ## Chains and phrases -/

def EndsChain (following : List String) : Prop :=
  ∀ op, firstToken (lexemesOf .blank following) ≠ some (.symbol (Grammar.operatorSign op))

def EndsPhrase (following : List String) : Prop :=
  EndsChain following ∧ firstToken (lexemesOf .blank following) ≠ some (.word "if".toList)

theorem keyword_ends_chain {word : String} (segment : isSegment word.toList = true)
    (words : List String) : EndsChain (word :: words) := by
  intro op
  rw [keyword_first segment]
  simp

theorem keyword_ends_phrase {word : String} (segment : isSegment word.toList = true)
    (other : word.toList ≠ "if".toList) (words : List String) : EndsPhrase (word :: words) := by
  refine ⟨keyword_ends_chain segment words, ?_⟩
  rw [keyword_first segment]
  simpa using other

theorem comparison_ends_chain (test : Comparison) (words : List String) :
    EndsChain (test.word :: words) := by
  have spelled : Spells test.word.toList (test.word.toList.map Token.symbol) :=
    spells_marks (by cases test <;> rfl)
  intro op
  cases test <;> cases op <;> rw [first_token_of_spells spelled] <;> decide

theorem mark_ends_phrase {word : String} {c : Char} (same : word.toList = [c])
    (mark : isMark c = true) (other : ∀ op, c ≠ Grammar.operatorSign op) (words : List String) :
    EndsPhrase (word :: words) := by
  constructor
  · intro op
    rw [mark_first same mark]
    simpa using other op
  · rw [mark_first same mark]
    simp

def Chain.Means (chain : Chain) (expr : Expr) : Prop :=
  Expr.ofChain chain.toJoined = expr ∧ chain.Unbroken

def Phrase.Means (phrase : Phrase) (expr : Expr) : Prop :=
  phrase.toExpr = expr ∧ phrase.Unbroken

/-- The parser reads the words as something that stands for the expression. -/
def Parser.Understands {α : Type} (parser : Parser α) (means : α → Expr → Prop) (words : List String)
    (expr : Expr) (following : List String) : Prop :=
  ∃ value, parser.Reads (lexemesOf .blank (words ++ following)) value (lexemesOf .blank following) ∧
    means value expr

theorem operator_misses {tokens : List Lexeme}
    (others : ∀ op, firstToken tokens ≠ some (.symbol (Grammar.operatorSign op))) :
    Grammar.operator.Misses tokens := by
  apply first_of_misses
  intro parser member
  obtain ⟨op, _, rfl⟩ := List.mem_map.mp member
  exact named_misses (bind_misses _ (symbol_misses (others op)))

theorem operator_reads (op : BinaryOp) (gap : Gap) (words : List String) :
    Grammar.operator.Reads (lexemesOf gap (op.word :: words)) op (lexemesOf .blank words) := by
  have spelled : Spells op.word.toList [.symbol (Grammar.operatorSign op)] := by
    cases op with
    | div => exact spells_slash
    | add => exact spells_marks rfl
    | sub => exact spells_marks rfl
    | mul => exact spells_marks rfl
    | pow => exact spells_marks rfl
  rw [lexemes_of_spells spelled]
  cases op <;> rfl

theorem comparison_reads (test : Comparison) (gap : Gap) (words : List String) :
    Grammar.comparison.Reads (lexemesOf gap (test.word :: words)) test (lexemesOf .blank words) := by
  have spelled : Spells test.word.toList (test.word.toList.map Token.symbol) :=
    spells_marks (by cases test <;> rfl)
  have apart := apart_lexemes words
  rw [lexemes_of_spells spelled]
  -- A shorter comparison is told from a longer one by the gap in front of what follows it.
  generalize lexemesOf .blank words = rest at apart ⊢
  cases rest with
  | nil => cases test <;> rfl
  | cons lexeme rest =>
      obtain ⟨between, token⟩ := lexeme
      cases between with
      | none => exact absurd rfl (apart _ rfl)
      | blank => cases test <;> rfl
      | comment => cases test <;> rfl

section Joining

variable {operand : Parser Operand} {phrase : Parser Phrase} {words following : List String}
  {expr : Expr}

theorem chain_of_operand (part : operand.Understands Operand.Means words expr following)
    (ends : EndsChain following) :
    (Grammar.chain operand).Understands Chain.Means words expr following := by
  obtain ⟨value, found, same, unbroken⟩ := part
  refine ⟨.last value, named_reads (bind_reads found (bind_reads
    (many_reads (.stop (bind_misses _ (operator_misses ends)))) (pure_reads _ _))), ?_, unbroken⟩
  rw [Chain.toJoined, same]
  rfl

theorem chain_of_operands {leftWords rightWords : List String} {left right : Expr} (op : BinaryOp)
    (leftPart : operand.Understands Operand.Means leftWords left
      (op.word :: (rightWords ++ following)))
    (rightPart : operand.Understands Operand.Means rightWords right following)
    (ends : EndsChain following) :
    (Grammar.chain operand).Understands Chain.Means (leftWords ++ [op.word] ++ rightWords)
      (.binary op left right) following := by
  obtain ⟨first, leftFound, leftSame, leftUnbroken⟩ := leftPart
  obtain ⟨second, rightFound, rightSame, rightUnbroken⟩ := rightPart
  have shorter := lexemes_shorter (single_is_word.mp (operator_is_word op)) .blank rightWords following
  have joined : Reads (do let sign ← Grammar.operator; let next ← operand; pure (sign, next))
      (lexemesOf .blank (op.word :: (rightWords ++ following))) (op, second)
      (lexemesOf .blank following) :=
    bind_reads (operator_reads op .blank _) (bind_reads rightFound (pure_reads _ _))
  have others := Repeats.more joined shorter (.stop (bind_misses _ (operator_misses ends)))
  refine ⟨.join first op (.last second), ?_, ?_, leftUnbroken, rightUnbroken⟩
  · simp only [List.append_assoc, List.singleton_append]
    exact named_reads (bind_reads leftFound (bind_reads (many_reads others) (pure_reads _ _)))
  · rw [Chain.toJoined, Chain.toJoined, leftSame, rightSame]
    cases op <;> rfl

theorem phrase_of_chain (value : (Grammar.chain operand).Understands Chain.Means words expr following)
    (ends : EndsPhrase following) :
    (Grammar.phraseOf operand phrase).Understands Phrase.Means words expr following := by
  obtain ⟨chain, found, same, unbroken⟩ := value
  have noCondition : (Grammar.conditional operand phrase).Misses (lexemesOf .blank following) :=
    named_misses (bind_misses _ (keyword_misses ends.2))
  exact ⟨.plain chain, named_reads (bind_reads found (bind_reads (optional_reads_none noCondition)
    (pure_reads _ _))), same, unbroken⟩

theorem phrase_of_condition {leftWords rightWords otherWords : List String} {left right other : Expr}
    (test : Comparison)
    (value : (Grammar.chain operand).Understands Chain.Means words expr
      ("if" :: (leftWords ++ test.word :: (rightWords ++ "else" :: (otherWords ++ following)))))
    (leftValue : (Grammar.chain operand).Understands Chain.Means leftWords left
      (test.word :: (rightWords ++ "else" :: (otherWords ++ following))))
    (rightValue : (Grammar.chain operand).Understands Chain.Means rightWords right
      ("else" :: (otherWords ++ following)))
    (alternative : phrase.Understands Phrase.Means otherWords other following) :
    (Grammar.phraseOf operand phrase).Understands Phrase.Means
      (words ++ ["if"] ++ leftWords ++ [test.word] ++ rightWords ++ ["else"] ++ otherWords)
      (.conditional test left right expr other) following := by
  obtain ⟨chain, found, same, unbroken⟩ := value
  obtain ⟨leftChain, leftFound, leftSame, leftUnbroken⟩ := leftValue
  obtain ⟨rightChain, rightFound, rightSame, rightUnbroken⟩ := rightValue
  obtain ⟨otherPhrase, otherFound, otherSame, otherUnbroken⟩ := alternative
  have condition : (Grammar.condition operand).Reads
      (lexemesOf .blank (leftWords ++ test.word :: (rightWords ++ "else" :: (otherWords ++ following))))
      (leftChain, test, rightChain) (lexemesOf .blank ("else" :: (otherWords ++ following))) :=
    named_reads (bind_reads leftFound (bind_reads (comparison_reads test .blank _)
      (bind_reads rightFound (pure_reads _ _))))
  have conditional : (Grammar.conditional operand phrase).Reads
      (lexemesOf .blank ("if" ::
        (leftWords ++ test.word :: (rightWords ++ "else" :: (otherWords ++ following)))))
      ((leftChain, test, rightChain), otherPhrase) (lexemesOf .blank following) :=
    named_reads (bind_reads (word_reads rfl .blank _) (bind_reads condition
      (bind_reads (word_reads rfl .blank _) (bind_reads otherFound (pure_reads _ _)))))
  refine ⟨.conditional chain leftChain test rightChain otherPhrase, ?_, ?_, unbroken, leftUnbroken,
    rightUnbroken, otherUnbroken⟩
  · simp only [List.append_assoc, List.singleton_append]
    exact named_reads (bind_reads found (bind_reads (optional_reads conditional) (pure_reads _ _)))
  · rw [Phrase.toExpr, same, leftSame, rightSame, otherSame]

end Joining

/-! ## Lists -/

def EndsItem (following : List String) : Prop :=
  firstToken (lexemesOf .blank following) = some (.symbol ',') ∨
    firstToken (lexemesOf .blank following) = some (.symbol ']')

section Lists

variable {α β : Type} {item : Parser α} {words : β → List String} {back : α → β} {good : α → Prop}

def ReadsItem (item : Parser α) (words : β → List String) (back : α → β) (good : α → Prop)
    (entry : β) : Prop :=
  ∀ following, EndsItem following → ∃ value,
    item.Reads (lexemesOf .blank (words entry ++ following)) value (lexemesOf .blank following) ∧
      back value = entry ∧ good value

theorem separated_items_end (others : List β) (following : List String) :
    EndsItem ((others.map words).flatMap (List.cons ",") ++ "]" :: following) := by
  cases others with
  | nil => exact Or.inr (mark_first rfl rfl _ _)
  | cons entry others => exact Or.inl (mark_first rfl rfl _ _)

theorem separated_items_repeat {others : List β} (following : List String)
    (reads : ∀ entry ∈ others, ReadsItem item words back good entry) :
    ∃ values, Repeats (symbol ',' >>= fun _ => item)
      (lexemesOf .blank ((others.map words).flatMap (List.cons ",") ++ "]" :: following)) values
      (lexemesOf .blank ("]" :: following)) ∧
        values.map back = others ∧ ∀ value ∈ values, good value := by
  induction others with
  | nil =>
      refine ⟨[], .stop (bind_misses _ (symbol_misses ?_)), rfl, by simp⟩
      simp only [List.map_nil, List.flatMap_nil, List.nil_append]
      rw [mark_first rfl rfl]
      decide
  | cons entry others induction =>
      obtain ⟨own, otherReads⟩ := List.forall_mem_cons.mp reads
      obtain ⟨values, repeated, same, goods⟩ := induction otherReads
      obtain ⟨value, found, back, ownGood⟩ := own _ (separated_items_end others following)
      refine ⟨value :: values, ?_, by simp [back, same], by simpa using ⟨ownGood, goods⟩⟩
      simp only [List.map_cons, List.flatMap_cons, List.cons_append, List.append_assoc]
      exact .more (bind_reads (mark_reads rfl rfl .blank _) found)
        (lexemes_shorter (marks_word rfl (by decide)) .blank (words entry) _) repeated

theorem list_reads {items : List β} (some : items ≠ []) (following : List String)
    (reads : ∀ entry ∈ items, ReadsItem item words back good entry) :
    ∃ values, (Grammar.listOf item).Reads
      (lexemesOf .blank (listed (items.map words) ++ "]" :: following)) values
      (lexemesOf .blank ("]" :: following)) ∧
        values.map back = items ∧ ∀ value ∈ values, good value := by
  cases items with
  | nil => exact absurd rfl some
  | cons entry others =>
      obtain ⟨own, otherReads⟩ := List.forall_mem_cons.mp reads
      obtain ⟨value, found, back, ownGood⟩ := own _ (separated_items_end others following)
      obtain ⟨values, repeated, same, goods⟩ := separated_items_repeat following otherReads
      have noComma : (symbol ',').Misses (lexemesOf .blank ("]" :: following)) := by
        apply symbol_misses
        rw [mark_first rfl rfl]
        decide
      refine ⟨value :: values, ?_, by simp [back, same], by simpa using ⟨ownGood, goods⟩⟩
      rw [List.map_cons, listed_cons, List.append_assoc]
      exact bind_reads found (bind_reads (many_reads repeated)
        (bind_reads (optional_reads_none noComma) (pure_reads _ _)))

end Lists

/-! ## Operands with parts -/

section Parts

variable {operand : Parser Operand} {phrase : Parser Phrase} {following : List String}

theorem number_part {literal : Float → String} {value : Float}
    (printable : IsLiteral (literal value) value) :
    (Grammar.operandOf operand phrase).Understands Operand.Means [literal value] (.number value)
      following := by
  obtain ⟨number, found, means⟩ := number_reads printable .blank following
  exact ⟨number, or_else_reads_first _ found, means⟩

theorem path_part {text : String} (valid : isName text = true) :
    (Grammar.operandOf operand phrase).Understands Operand.Means [text] (.path text) following := by
  obtain ⟨first, noKeyword, start⟩ := name_first valid .blank following
  have found : Grammar.path.Reads (lexemesOf .blank (text :: following)) (.path _ text)
      (lexemesOf .blank following) :=
    bind_reads (ahead_reads _) (bind_reads (identifier_reads valid .blank following)
      (bind_reads (ahead_reads _) (pure_reads _ _)))
  exact ⟨_, operand_reads_path start noKeyword found, rfl, trivial⟩

theorem lifecycle_part {paths : List String} (some : paths ≠ [])
    (valid : ∀ path ∈ paths, isName path = true) :
    (Grammar.operandOf operand phrase).Understands Operand.Means
      (["lifecycle", "of", "["] ++ listed (paths.map (fun path => [path])) ++ ["]"])
      (.lifecycle paths) following := by
  have items : ∀ path ∈ paths, ReadsItem Grammar.identifier (fun path => [path]) id
      (fun _ => True) path := by
    intro path member following _
    exact ⟨path, identifier_reads (valid path member) .blank following, rfl, trivial⟩
  obtain ⟨values, found, same, _⟩ := list_reads some following items
  rw [List.map_id] at same
  subst same
  have read : Grammar.lifecycle.Reads
      (lexemesOf .blank ("lifecycle" :: "of" :: "[" ::
        (listed (values.map (fun path => [path])) ++ "]" :: following)))
      (.lifecycle _ values) (lexemesOf .blank following) :=
    named_reads (bind_reads (ahead_reads _) (bind_reads (word_reads rfl .blank _)
      (bind_reads (word_reads rfl .blank _) (bind_reads (mark_reads rfl rfl .blank _)
        (bind_reads found (bind_reads (mark_reads rfl rfl .blank _)
          (bind_reads (ahead_reads _) (pure_reads _ _))))))))
  simp only [Parser.Understands, List.append_assoc, List.cons_append, List.nil_append]
  exact ⟨_, operand_reads_lifecycle (keyword_first rfl _ _) read, rfl, trivial⟩

theorem uniform_part {lowWords highWords : List String} {low high : Expr}
    (lowValue : (Grammar.chain operand).Understands Chain.Means lowWords low
      ("to" :: (highWords ++ following)))
    (highValue : (Grammar.chain operand).Understands Chain.Means highWords high following) :
    (Grammar.operandOf operand phrase).Understands Operand.Means
      (["draw", "uniformly", "from"] ++ lowWords ++ ["to"] ++ highWords) (.uniform low high)
      following := by
  obtain ⟨lowChain, lowFound, lowSame, lowUnbroken⟩ := lowValue
  obtain ⟨highChain, highFound, highSame, highUnbroken⟩ := highValue
  have read : (Grammar.uniform operand).Reads
      (lexemesOf .blank ("draw" :: "uniformly" :: "from" ::
        (lowWords ++ "to" :: (highWords ++ following))))
      (.uniform _ lowChain highChain) (lexemesOf .blank following) :=
    named_reads (bind_reads (ahead_reads _) (bind_reads (word_reads rfl .blank _)
      (bind_reads (word_reads rfl .blank _) (bind_reads (word_reads rfl .blank _)
        (bind_reads lowFound (bind_reads (word_reads rfl .blank _)
          (bind_reads highFound (bind_reads (ahead_reads _) (pure_reads _ _)))))))))
  simp only [Parser.Understands, List.append_assoc, List.cons_append, List.nil_append]
  refine ⟨_, operand_reads_uniform (keyword_first rfl _ _) read, ?_, lowUnbroken, highUnbroken⟩
  rw [Operand.toExpr, lowSame, highSame]

theorem normal_part {meanWords deviationWords : List String} {mean deviation : Expr}
    (meanValue : (Grammar.chain operand).Understands Chain.Means meanWords mean
      ("std" :: "of" :: (deviationWords ++ following)))
    (deviationValue : (Grammar.chain operand).Understands Chain.Means deviationWords deviation
      following) :
    (Grammar.operandOf operand phrase).Understands Operand.Means
      (["draw", "normally", "from", "mean", "of"] ++ meanWords ++ ["std", "of"] ++ deviationWords)
      (.normal mean deviation) following := by
  obtain ⟨meanChain, meanFound, meanSame, meanUnbroken⟩ := meanValue
  obtain ⟨deviationChain, deviationFound, deviationSame, deviationUnbroken⟩ := deviationValue
  have read : (Grammar.normal operand).Reads
      (lexemesOf .blank ("draw" :: "normally" :: "from" :: "mean" :: "of" ::
        (meanWords ++ "std" :: "of" :: (deviationWords ++ following))))
      (.normal _ meanChain deviationChain) (lexemesOf .blank following) :=
    named_reads (bind_reads (ahead_reads _) (bind_reads (word_reads rfl .blank _)
      (bind_reads (word_reads rfl .blank _) (bind_reads (word_reads rfl .blank _)
        (bind_reads (word_reads rfl .blank _) (bind_reads (word_reads rfl .blank _)
          (bind_reads meanFound (bind_reads (word_reads rfl .blank _)
            (bind_reads (word_reads rfl .blank _) (bind_reads deviationFound
              (bind_reads (ahead_reads _) (pure_reads _ _))))))))))))
  have noUniform : ∀ words, (Grammar.uniform operand).Misses
      (lexemesOf .blank ("draw" :: "normally" :: words)) := by
    intro words
    refine named_misses (bind_misses_later (ahead_reads _)
      (bind_misses_later (word_reads rfl .blank _) (bind_misses _ (keyword_misses ?_))))
    rw [keyword_first rfl]
    decide
  simp only [Parser.Understands, List.append_assoc, List.cons_append, List.nil_append]
  refine ⟨_, operand_reads_normal (keyword_first rfl _ _) (noUniform _) read, ?_, meanUnbroken,
    deviationUnbroken⟩
  rw [Operand.toExpr, meanSame, deviationSame]

theorem reducer_reads (reducer : Reducer) (gap : Gap) (words : List String) :
    Grammar.reducer.Reads (lexemesOf gap (reducer.word :: words)) reducer
      (lexemesOf .blank words) := by
  have spelled : Spells reducer.word.toList [.word reducer.word.toList] :=
    (segment_word (by cases reducer <;> rfl)).1
  rw [lexemes_of_spells spelled]
  cases reducer <;> rfl

theorem repetition_part {countWords bodyWords : List String} {count body : Expr} (reducer : Reducer)
    (countValue : operand.Understands Operand.Means countWords count
      ("repeats" :: "of" :: (bodyWords ++ following)))
    (bodyValue : phrase.Understands Phrase.Means bodyWords body following) :
    (Grammar.operandOf operand phrase).Understands Operand.Means
      ([reducer.word] ++ countWords ++ ["repeats", "of"] ++ bodyWords) (.repeated reducer count body)
      following := by
  obtain ⟨countOperand, countFound, countSame, countUnbroken⟩ := countValue
  obtain ⟨bodyPhrase, bodyFound, bodySame, bodyUnbroken⟩ := bodyValue
  have segment : isSegment reducer.word.toList = true := by cases reducer <;> rfl
  have read : (Grammar.repetition operand phrase).Reads
      (lexemesOf .blank (reducer.word ::
        (countWords ++ "repeats" :: "of" :: (bodyWords ++ following))))
      (.repeated _ reducer countOperand bodyPhrase) (lexemesOf .blank following) :=
    named_reads (bind_reads (ahead_reads _) (bind_reads (reducer_reads reducer .blank _)
      (bind_reads countFound (bind_reads (word_reads rfl .blank _)
        (bind_reads (word_reads rfl .blank _) (bind_reads bodyFound
          (bind_reads (ahead_reads _) (pure_reads _ _))))))))
  simp only [Parser.Understands, List.append_assoc, List.cons_append, List.nil_append]
  refine ⟨_, operand_reads_repetition (keyword_first segment _ _) read, ?_, countUnbroken,
    bodyUnbroken⟩
  rw [Operand.toExpr, countSame, bodySame]

theorem group_part {words : List String} {expr : Expr}
    (body : phrase.Understands Phrase.Means words expr (")" :: following)) :
    (Grammar.operandOf operand phrase).Understands Operand.Means (["("] ++ words ++ [")"]) expr
      following := by
  obtain ⟨inner, found, same, unbroken⟩ := body
  have read : (Grammar.group phrase).Reads (lexemesOf .blank ("(" :: (words ++ ")" :: following)))
      (.group _ inner) (lexemesOf .blank following) :=
    named_reads (bind_reads (ahead_reads _) (bind_reads (mark_reads rfl rfl .blank _)
      (bind_reads found (bind_reads (mark_reads rfl rfl .blank _)
        (bind_reads (ahead_reads _) (pure_reads _ _))))))
  simp only [Parser.Understands, List.append_assoc, List.cons_append, List.nil_append]
  refine ⟨_, operand_reads_group (mark_first rfl rfl _ _) read, ?_, unbroken⟩
  rw [Operand.toExpr, same]

end Parts

/-! ## Expressions of any depth -/

namespace Expr

/-- A nesting of the grammar at which the printed expression can be read. -/
def levels : Expr → Nat
  | number _ => 1
  | path _ => 1
  | lifecycle _ => 1
  | binary _ left right => max left.levels right.levels + 2
  | conditional _ left right consequent alternative =>
    max (max left.levels right.levels) (max consequent.levels alternative.levels) + 2
  | uniform low high => max low.levels high.levels + 2
  | normal mean deviation => max mean.levels deviation.levels + 2
  | repeated _ count body => max count.levels body.levels + 2

/-- As a part the expression is read back at a nesting, whatever follows. -/
def PartReads (literal : Float → String) (expr : Expr) (nesting : Nat) : Prop :=
  ∀ following, (Grammar.level nesting).operand.Understands Operand.Means (expr.partWords literal) expr
    following

/-- Standing alone the expression is read back at a nesting if nothing carries it on. -/
def AloneReads (literal : Float → String) (expr : Expr) (nesting : Nat) : Prop :=
  ∀ following, EndsPhrase following →
    (Grammar.level nesting).phrase.Understands Phrase.Means (expr.words literal) expr following

variable {literal : Float → String} {expr : Expr} {nesting : Nat}

theorem part_chain (part : expr.PartReads literal nesting) {following : List String}
    (ends : EndsChain following) :
    (Grammar.chain (Grammar.level nesting).operand).Understands Chain.Means (expr.partWords literal)
      expr following := chain_of_operand (part following) ends

theorem part_phrase (part : expr.PartReads literal (nesting + 1)) {following : List String}
    (ends : EndsPhrase following) :
    (Grammar.level (nesting + 1)).phrase.Understands Phrase.Means (expr.partWords literal) expr
      following := phrase_of_chain (part_chain part ends.1) ends

theorem part_words_simple (simple : expr.isCompound = false) :
    expr.partWords literal = expr.words literal := by
  simp [partWords, enclosed, simple]

theorem part_words_compound (compound : expr.isCompound = true) :
    expr.partWords literal = ["("] ++ expr.words literal ++ [")"] := by
  simp [partWords, enclosed, compound]

theorem simple_reads (simple : expr.isCompound = false) (levels : 1 ≤ nesting)
    (part : ∀ nesting, expr.PartReads literal (nesting + 1)) :
    expr.PartReads literal nesting ∧ expr.AloneReads literal nesting := by
  cases nesting with
  | zero => omega
  | succ inner =>
      refine ⟨part inner, ?_⟩
      intro following ends
      have alone := part_phrase (part inner) ends
      rw [part_words_simple simple] at alone
      exact alone

/-- In parentheses an expression needs one more level. -/
theorem compound_reads {base : Nat} (compound : expr.isCompound = true) (levels : base + 2 ≤ nesting)
    (alone : ∀ inner, base ≤ inner → expr.AloneReads literal (inner + 1)) :
    expr.PartReads literal nesting ∧ expr.AloneReads literal nesting := by
  obtain ⟨inner, rfl⟩ : ∃ inner, nesting = inner + 2 := ⟨nesting - 2, by omega⟩
  refine ⟨?_, alone (inner + 1) (by omega)⟩
  intro following
  have closing : EndsPhrase (")" :: following) :=
    mark_ends_phrase rfl rfl (by intro op; cases op <;> decide) following
  rw [part_words_compound compound]
  exact group_part (alone inner (by omega) _ closing)

theorem levels_positive (expr : Expr) : 1 ≤ expr.levels := by
  cases expr <;> simp only [levels] <;> omega

theorem alone_of_operand
    (operand : ∀ following, EndsPhrase following → (Grammar.level (nesting + 1)).operand.Understands
      Operand.Means (expr.words literal) expr following) :
    expr.AloneReads literal (nesting + 1) := by
  intro following ends
  exact phrase_of_chain (chain_of_operand (operand following ends) ends.1) ends

theorem phrase_of_part (part : expr.PartReads literal nesting) (levels : expr.levels ≤ nesting)
    {following : List String} (ends : EndsPhrase following) :
    (Grammar.level nesting).phrase.Understands Phrase.Means (expr.partWords literal) expr
      following := by
  have positive := expr.levels_positive
  cases nesting with
  | zero => omega
  | succ inner => exact part_phrase part ends

/-- Every printable expression is read back at every nesting that it fits in, as a part and alone. -/
theorem reads_back (printable : expr.Printable literal) (enough : expr.levels ≤ nesting) :
    expr.PartReads literal nesting ∧ expr.AloneReads literal nesting := by
  induction expr generalizing nesting with
  | number value =>
      apply simple_reads rfl enough
      intro nesting following
      exact number_part printable
  | path text =>
      apply simple_reads rfl enough
      intro nesting following
      exact path_part printable
  | lifecycle paths =>
      apply simple_reads rfl enough
      intro nesting following
      exact lifecycle_part printable.1 printable.2
  | binary op left right leftReads rightReads =>
      apply compound_reads rfl enough
      intro inner above following ends
      have lefts : left.PartReads literal (inner + 1) := (leftReads printable.1 (by omega)).1
      have rights : right.PartReads literal (inner + 1) := (rightReads printable.2 (by omega)).1
      exact phrase_of_chain (chain_of_operands op (lefts _) (rights _) ends.1) ends
  | conditional test left right consequent alternative leftReads rightReads consequentReads
      alternativeReads =>
      obtain ⟨leftPrintable, rightPrintable, consequentPrintable, alternativePrintable⟩ := printable
      apply compound_reads rfl enough
      intro inner above following ends
      have lefts : left.PartReads literal (inner + 1) := (leftReads leftPrintable (by omega)).1
      have rights : right.PartReads literal (inner + 1) := (rightReads rightPrintable (by omega)).1
      have consequents : consequent.PartReads literal (inner + 1) :=
        (consequentReads consequentPrintable (by omega)).1
      -- the alternative is a phrase of its own, one level further in than the chains in front of it
      have alternatives : alternative.PartReads literal inner :=
        (alternativeReads alternativePrintable (by omega)).1
      exact phrase_of_condition test (part_chain consequents (keyword_ends_chain rfl _))
        (part_chain lefts (comparison_ends_chain test _))
        (part_chain rights (keyword_ends_chain rfl _))
        (phrase_of_part alternatives (by omega) ends)
  | uniform low high lowReads highReads =>
      apply compound_reads rfl enough
      intro inner above
      apply alone_of_operand
      intro following ends
      have lows : low.PartReads literal inner := (lowReads printable.1 (by omega)).1
      have highs : high.PartReads literal inner := (highReads printable.2 (by omega)).1
      exact uniform_part (part_chain lows (keyword_ends_chain rfl _)) (part_chain highs ends.1)
  | normal mean deviation meanReads deviationReads =>
      apply compound_reads rfl enough
      intro inner above
      apply alone_of_operand
      intro following ends
      have means : mean.PartReads literal inner := (meanReads printable.1 (by omega)).1
      have deviations : deviation.PartReads literal inner :=
        (deviationReads printable.2 (by omega)).1
      exact normal_part (part_chain means (keyword_ends_chain rfl _)) (part_chain deviations ends.1)
  | repeated reducer count body countReads bodyReads =>
      apply compound_reads rfl enough
      intro inner above
      apply alone_of_operand
      intro following ends
      have counts : count.PartReads literal inner := (countReads printable.1 (by omega)).1
      have bodies : body.PartReads literal inner := (bodyReads printable.2 (by omega)).1
      exact repetition_part reducer (counts _) (phrase_of_part bodies (by omega) ends)

end Expr

end PolicyLevers.Script
