import PolicyLevers.Script.Parser

/-!
# Rules for parsers

What a parser reads, apart from its report of what it looked for in vain: one rule for each way of
putting parsers together.  A rule about success says which tokens are left, a rule about failure that
there is no value.
-/

namespace PolicyLevers.Script.Parser

set_option autoImplicit false

variable {α β : Type}

/-- The parser takes a value from the front of `tokens` and leaves `rest`. -/
def Reads (parser : Parser α) (tokens : List Lexeme) (value : α) (rest : List Lexeme) : Prop :=
  (parser tokens).outcome = some (value, rest)

/-- The parser does not find what it looks for at the front of `tokens`. -/
def Misses (parser : Parser α) (tokens : List Lexeme) : Prop :=
  (parser tokens).outcome = none

theorem fail_misses (tokens : List Lexeme) : (fail : Parser α).Misses tokens := rfl

theorem pure_reads (value : α) (tokens : List Lexeme) :
    (pure value : Parser α).Reads tokens value tokens := rfl

theorem ahead_reads (tokens : List Lexeme) : ahead.Reads tokens tokens.length tokens := rfl

theorem bind_reads {first : Parser α} {next : α → Parser β} {tokens middle rest : List Lexeme}
    {value : α} {result : β} (found : first.Reads tokens value middle)
    (others : (next value).Reads middle result rest) :
    (first >>= next).Reads tokens result rest := by
  change (andThen first next tokens).outcome = some (result, rest)
  unfold Reads at found
  simp only [andThen, found]
  exact others

theorem bind_misses {first : Parser α} (next : α → Parser β) {tokens : List Lexeme}
    (missed : first.Misses tokens) : (first >>= next).Misses tokens := by
  change (andThen first next tokens).outcome = none
  unfold Misses at missed
  simp only [andThen, missed]

theorem bind_misses_later {first : Parser α} {next : α → Parser β} {tokens middle : List Lexeme}
    {value : α} (found : first.Reads tokens value middle) (missed : (next value).Misses middle) :
    (first >>= next).Misses tokens := by
  change (andThen first next tokens).outcome = none
  unfold Reads at found
  simp only [andThen, found]
  exact missed

theorem or_else_reads_first {first : Parser α} (second : Parser α) {tokens rest : List Lexeme}
    {value : α} (found : first.Reads tokens value rest) :
    (orElse first second).Reads tokens value rest := by
  unfold Reads at found ⊢
  simp only [orElse, found]

theorem or_else_reads_second {first second : Parser α} {tokens rest : List Lexeme} {value : α}
    (missed : first.Misses tokens) (found : second.Reads tokens value rest) :
    (orElse first second).Reads tokens value rest := by
  unfold Misses at missed
  unfold Reads at found ⊢
  simp only [orElse, missed, found]

theorem or_else_misses {first second : Parser α} {tokens : List Lexeme}
    (missed : first.Misses tokens) (others : second.Misses tokens) :
    (orElse first second).Misses tokens := by
  unfold Misses at missed others ⊢
  simp only [orElse, missed, others]

theorem first_of_misses {choices : List (Parser α)} {tokens : List Lexeme}
    (missed : ∀ parser ∈ choices, parser.Misses tokens) : (firstOf choices).Misses tokens := by
  induction choices with
  | nil => exact fail_misses tokens
  | cons parser choices induction =>
      refine or_else_misses (missed parser (by simp)) (induction ?_)
      intro later member
      exact missed later (by simp [member])

theorem optional_reads {parser : Parser α} {tokens rest : List Lexeme} {value : α}
    (found : parser.Reads tokens value rest) :
    (optional parser).Reads tokens (some value) rest := by
  unfold Reads at found ⊢
  simp only [optional, found]

theorem optional_reads_none {parser : Parser α} {tokens : List Lexeme}
    (missed : parser.Misses tokens) : (optional parser).Reads tokens none tokens := by
  unfold Misses at missed
  unfold Reads
  simp only [optional, missed]

/-- The parser is found `values.length` times, each time with fewer tokens left, and then no more. -/
inductive Repeats (parser : Parser α) : List Lexeme → List α → List Lexeme → Prop where
  | stop {tokens : List Lexeme} (missed : parser.Misses tokens) : Repeats parser tokens [] tokens
  | more {tokens middle rest : List Lexeme} {value : α} {values : List α}
      (found : parser.Reads tokens value middle) (shorter : middle.length < tokens.length)
      (others : Repeats parser middle values rest) : Repeats parser tokens (value :: values) rest

theorem up_to_reads {parser : Parser α} {tokens rest : List Lexeme} {values : List α}
    (repeated : Repeats parser tokens values rest) (count : Nat) (enough : tokens.length < count) :
    (upTo parser count).Reads tokens values rest := by
  induction repeated generalizing count with
  | stop missed =>
      cases count with
      | zero => omega
      | succ count =>
          unfold Misses at missed
          unfold Reads
          simp only [upTo, missed]
  | more found shorter others induction =>
      cases count with
      | zero => omega
      | succ count =>
          have reads := induction count (by omega)
          unfold Reads at found reads ⊢
          simp only [upTo, found, reads, Option.map_some]

theorem many_reads {parser : Parser α} {tokens rest : List Lexeme} {values : List α}
    (repeated : Repeats parser tokens values rest) : (many parser).Reads tokens values rest :=
  up_to_reads repeated _ (Nat.lt_succ_self _)

/-- A name changes the report of a failure only. -/
theorem named_outcome (part : Expectation) (parser : Parser α) (tokens : List Lexeme) :
    (named part parser tokens).outcome = (parser tokens).outcome := by
  unfold named
  cases found : (parser tokens).outcome <;> simp [found]

theorem named_reads {part : Expectation} {parser : Parser α} {tokens rest : List Lexeme} {value : α}
    (found : parser.Reads tokens value rest) : (named part parser).Reads tokens value rest := by
  unfold Reads
  rw [named_outcome, found]

theorem named_misses {part : Expectation} {parser : Parser α} {tokens : List Lexeme}
    (missed : parser.Misses tokens) : (named part parser).Misses tokens := by
  unfold Misses
  rw [named_outcome, missed]

theorem named_from_gap_reads {part : Expectation} {parser : Parser α} {tokens rest : List Lexeme}
    {value : α} (found : parser.Reads tokens value rest) :
    (namedFromGap part parser).Reads tokens value rest := by
  unfold Reads namedFromGap
  split
  · exact named_reads found
  · exact found

theorem with_text_reads {parser : Parser α} {taken rest : List Lexeme} {value : α}
    (found : parser.Reads (taken ++ rest) value rest) :
    (withText parser).Reads (taken ++ rest)
      (taken.flatMap (fun lexeme => lexeme.token.text), value) rest := by
  unfold Reads at found ⊢
  simp [withText, found]

/-! ## Single tokens -/

def firstToken (tokens : List Lexeme) : Option Token := tokens.head?.map Lexeme.token

theorem token_reads {read : Lexeme → Option α} {lexeme : Lexeme} {value : α} (rest : List Lexeme)
    (accepted : read lexeme = some value) : (token read).Reads (lexeme :: rest) value rest := by
  simp [Reads, token, accepted]

theorem token_misses {read : Lexeme → Option α} {tokens : List Lexeme}
    (refused : ∀ lexeme ∈ tokens.head?, read lexeme = none) : (token read).Misses tokens := by
  cases tokens with
  | nil => rfl
  | cons lexeme rest => simp [Misses, token, refused lexeme (by simp)]

theorem first_token_of_head {tokens : List Lexeme} {lexeme : Lexeme}
    (head : lexeme ∈ tokens.head?) : firstToken tokens = some lexeme.token := by
  have same : tokens.head? = some lexeme := head
  rw [firstToken, same]
  rfl

theorem symbol_reads (c : Char) (gap : Gap) (rest : List Lexeme) :
    (symbol c).Reads (⟨gap, .symbol c⟩ :: rest) () rest :=
  token_reads rest (by simp)

theorem symbol_misses {c : Char} {tokens : List Lexeme}
    (other : firstToken tokens ≠ some (.symbol c)) : (symbol c).Misses tokens := by
  apply token_misses
  intro lexeme head
  rw [first_token_of_head head] at other
  exact if_neg (fun same => other (congrArg some same))

theorem touching_reads (c : Char) (rest : List Lexeme) :
    (touching c).Reads (⟨.none, .symbol c⟩ :: rest) () rest :=
  token_reads rest (by simp)

/-- No parser that wants no gap in front finds anything here. -/
def Apart (tokens : List Lexeme) : Prop := ∀ lexeme ∈ tokens.head?, lexeme.gap ≠ .none

theorem touching_misses {c : Char} {tokens : List Lexeme} (apart : Apart tokens) :
    (touching c).Misses tokens := by
  apply token_misses
  intro lexeme head
  exact if_neg (fun both => apart lexeme head both.1)

theorem keyword_reads (spelling : String) (gap : Gap) (rest : List Lexeme) :
    (keyword spelling).Reads (⟨gap, .word spelling.toList⟩ :: rest) () rest :=
  named_reads (token_reads rest (by simp))

theorem keyword_misses {spelling : String} {tokens : List Lexeme}
    (other : firstToken tokens ≠ some (.word spelling.toList)) :
    (keyword spelling).Misses tokens := by
  apply named_misses
  apply token_misses
  intro lexeme head
  rw [first_token_of_head head] at other
  exact if_neg (fun same => other (congrArg some same))

theorem end_of_input_reads : endOfInput.Reads [] () [] := named_reads rfl

end PolicyLevers.Script.Parser
