import PolicyLevers.Proofs.MovedPhrases
import PolicyLevers.Proofs.ParserMatching
import PolicyLevers.Script.Grammar

/-!
# The grammar on two lists of tokens

No part of the grammar takes a semicolon except a statement, which ends with one.  So the form of a
statement is found in front of further tokens as it is found alone, with other gaps between its tokens as
with its own, and parsers for more levels of nesting than there are tokens find no more.  Each part of the
grammar matches itself by the rules for its own combinators; phrases are matched level by level.
-/

namespace PolicyLevers.Script.Grammar

set_option autoImplicit false

open PolicyLevers.Script.Parser

/-! ## Numbers -/

theorem sign_reads_iff {tokens rest : List Lexeme} {c : Char} :
    sign.Reads tokens c rest ↔ (c = '+' ∨ c = '-') ∧ ∃ gap, tokens = ⟨gap, .symbol c⟩ :: rest := by
  have mark (c : Char) : ((symbol c >>= fun _ => pure c) tokens).outcome =
      (symbol c tokens).outcome.map (fun (_, rest) => (c, rest)) := by
    rw [bind_outcome]
    cases (symbol c tokens).outcome <;> rfl
  have found (c : Char) : (symbol c tokens).outcome = some ((), rest) ↔
      ∃ gap, tokens = ⟨gap, .symbol c⟩ :: rest := symbol_reads_iff
  unfold Reads sign
  rw [named_outcome, or_else_outcome, mark, mark, Option.or_eq_some_iff]
  constructor
  · rintro (plus | ⟨_, minus⟩)
    · obtain ⟨⟨_, last⟩, plus, same⟩ := Option.map_eq_some_iff.mp plus
      cases same
      exact ⟨Or.inl rfl, (found '+').mp plus⟩
    · obtain ⟨⟨_, last⟩, minus, same⟩ := Option.map_eq_some_iff.mp minus
      cases same
      exact ⟨Or.inr rfl, (found '-').mp minus⟩
  · rintro ⟨rfl | rfl, gap, rfl⟩
    · exact Or.inl rfl
    · exact Or.inr ⟨rfl, rfl⟩

theorem digits_reads_iff {tokens rest : List Lexeme} {gap : Gap} {text : List Char} :
    digits.Reads tokens (gap, text) rest ↔ tokens = ⟨gap, .digits text⟩ :: rest := by
  unfold Reads digits
  rw [named_outcome]
  constructor
  · intro found
    obtain ⟨⟨own, first⟩, rfl, accepted⟩ := token_reads_iff.mp found
    cases first with
    | digits own =>
        cases accepted
        rfl
    | word own => cases accepted
    | symbol c => cases accepted
  · rintro rfl
    rfl

inductive WrittenNumber : List Lexeme → Operand → List Lexeme → Prop where
  | unsigned (gap : Gap) (text : List Char) (rest : List Lexeme) :
      WrittenNumber (⟨gap, .digits text⟩ :: rest)
        (.number ⟨rest.length + 1, rest.length, false⟩ none text) rest
  | signed (first : Gap) {c : Char} (mark : c = '+' ∨ c = '-') (gap : Gap) (text : List Char)
      (rest : List Lexeme) :
      WrittenNumber (⟨first, .symbol c⟩ :: ⟨gap, .digits text⟩ :: rest)
        (.number ⟨rest.length + 2, rest.length, false⟩ (some (c, gap)) text) rest

theorem number_reads_iff {tokens rest : List Lexeme} {value : Operand} :
    number.Reads tokens value rest ↔ WrittenNumber tokens value rest := by
  constructor
  · intro found
    unfold Reads number at found
    rw [named_outcome] at found
    obtain ⟨_, _, start, found⟩ := bind_reads_iff.mp found
    cases start
    obtain ⟨mark, middle, front, found⟩ := bind_reads_iff.mp found
    obtain ⟨⟨gap, text⟩, last, back, found⟩ := bind_reads_iff.mp found
    obtain rfl := digits_reads_iff.mp back
    cases found
    unfold Reads at front
    rw [optional_outcome] at front
    cases own : (sign tokens).outcome with
    | none =>
        rw [own] at front
        cases front
        exact .unsigned gap text _
    | some result =>
        obtain ⟨c, middle⟩ := result
        rw [own] at front
        cases front
        obtain ⟨mark, first, rfl⟩ := sign_reads_iff.mp own
        exact .signed first mark gap text _
  · intro written
    apply named_reads
    cases written with
    | unsigned gap text =>
        refine bind_reads (ahead_reads _) (bind_reads (optional_reads_none ?_)
          (bind_reads (digits_reads_iff.mpr rfl) rfl))
        exact named_misses rfl
    | signed first mark gap text =>
        exact bind_reads (ahead_reads _) (bind_reads (optional_reads (sign_reads_iff.mpr
          ⟨mark, first, rfl⟩)) (bind_reads (digits_reads_iff.mpr rfl) rfl))

/-! ## Corresponding phrases -/

/-- A change of tokens with the phrases that correspond to one another under it.  Phrases correspond if
they have one shape, their places count the tokens put behind, and their numbers correspond. -/
structure Recast extends Retokening where
  operand : Operand → Operand → Prop
  chain : Chain → Chain → Prop
  phrase : Phrase → Phrase → Prop
  number : ∀ {tokens rest : List Lexeme} {value : Operand}, Valid tokens →
    WrittenNumber tokens value rest →
    ∃ moved, WrittenNumber (apply tokens) moved (apply rest) ∧ operand value moved
  path : ∀ (extent : Extent) (text : String),
    operand (.path extent text) (.path (extent.move count) text)
  lifecycle : ∀ (extent : Extent) (paths : List String),
    operand (.lifecycle extent paths) (.lifecycle (extent.move count) paths)
  uniform : ∀ {low high otherLow otherHigh : Chain} (extent : Extent), chain low otherLow →
    chain high otherHigh →
    operand (.uniform extent low high) (.uniform (extent.move count) otherLow otherHigh)
  normal : ∀ {mean deviation otherMean otherDeviation : Chain} (extent : Extent),
    chain mean otherMean → chain deviation otherDeviation →
    operand (.normal extent mean deviation) (.normal (extent.move count) otherMean otherDeviation)
  repeated : ∀ {times otherTimes : Operand} {body otherBody : Phrase} (extent : Extent)
    (reducer : Reducer), operand times otherTimes → phrase body otherBody →
    operand (.repeated extent reducer times body)
      (.repeated (extent.move count) reducer otherTimes otherBody)
  group : ∀ {body otherBody : Phrase} (extent : Extent), phrase body otherBody →
    operand (.group extent body) (.group (extent.move count) otherBody)
  last : ∀ {value moved : Operand}, operand value moved → chain (.last value) (.last moved)
  join : ∀ {value moved : Operand} {rest otherRest : Chain} (op : BinaryOp), operand value moved →
    chain rest otherRest → chain (.join value op rest) (.join moved op otherRest)
  plain : ∀ {value moved : Chain}, chain value moved → phrase (.plain value) (.plain moved)
  conditional : ∀ {value moved left otherLeft right otherRight : Chain}
    {alternative otherAlternative : Phrase} (test : Comparison), chain value moved →
    chain left otherLeft → chain right otherRight → phrase alternative otherAlternative →
    phrase (.conditional value left test right alternative)
      (.conditional moved otherLeft test otherRight otherAlternative)
  spaced : ∀ {value moved : Chain}, chain value moved →
    moved.extent.spaced = value.extent.spaced

theorem Recast.of_list (recast : Recast) {first otherFirst : Operand}
    {others moved : List (BinaryOp × Operand)} (head : recast.operand first otherFirst)
    (tail : List.Forall₂ (fun next moved => moved.1 = next.1 ∧ recast.operand next.2 moved.2) others
      moved) :
    recast.chain (.ofList first others) (.ofList otherFirst moved) := by
  induction tail generalizing first otherFirst with
  | nil => exact recast.last head
  | @cons next moved rest movedRest same _ induction =>
      obtain ⟨op, next⟩ := next
      obtain ⟨otherOp, moved⟩ := moved
      obtain ⟨rfl, same⟩ := same
      exact recast.join otherOp head (induction same)

inductive Recast.Form (recast : Recast) : StatementForm → StatementForm → Prop where
  | definition (name : String) {value moved : Phrase} (same : recast.phrase value moved) :
      Form recast (.definition name value) (.definition name moved)
  | assignment (target : String) {value moved : Phrase} (same : recast.phrase value moved) :
      Form recast (.assignment target value) (.assignment target moved)
  | limit (target : String) {lower otherLower upper otherUpper : Option Phrase}
      (lowers : Option.Rel recast.phrase lower otherLower)
      (uppers : Option.Rel recast.phrase upper otherUpper) :
      Form recast (.limit target lower upper) (.limit target otherLower otherUpper)
  | distribute {value moved : Phrase} {targets others : List (String × Option Chain)} (split : Split)
      (same : recast.phrase value moved)
      (places : List.Forall₂ (fun target other =>
        other.1 = target.1 ∧ Option.Rel recast.chain target.2 other.2) targets others) :
      Form recast (.distribute value targets split) (.distribute moved others split)
  | change (target : String) {delta otherDelta start otherStart finish otherFinish : Chain}
      (deltas : recast.chain delta otherDelta) (starts : recast.chain start otherStart)
      (finishes : recast.chain finish otherFinish) :
      Form recast (.change target delta start finish)
        (.change target otherDelta otherStart otherFinish)
  | inspect (label : String) {value moved : Phrase} (same : recast.phrase value moved) :
      Form recast (.inspect label value) (.inspect label moved)

/-! ## Words and signs -/

variable {retoken : Retokening} {bound : Nat}

theorem identifier_matches :
    Matches retoken bound 1 Eq identifier identifier := by
  unfold identifier
  apply named_matches
  have first : Matches retoken bound 1 Eq leadingWord leadingWord := by
    apply token_matches
    · intro lexeme value accepted
      obtain ⟨gap, token⟩ := lexeme
      cases token with
      | word text => rfl
      | digits text => rfl
      | symbol c => cases accepted
    · intro lexeme gap touching
      rfl
  have further :
      Matches retoken (bound - 1) 1 Eq furtherWord furtherWord := by
    apply leading_matches (touching_matches (by decide))
    intro _ _ _
    have touched : Matches retoken (bound - 1 - 1) 1 Eq touchingWord
        touchingWord := by
      apply token_matches
      · intro lexeme value accepted
        obtain ⟨gap, token⟩ := lexeme
        cases token with
        | word text => rfl
        | digits text => rfl
        | symbol c => cases gap <;> cases accepted
      · intro lexeme gap touching
        obtain ⟨own, token⟩ := lexeme
        cases own <;> cases gap <;> simp_all
    apply then_matches touched
    rintro word _ rfl
    exact pure_matches rfl
  apply leading_matches first
  rintro word _ rfl
  apply then_matches (many_matches further)
  rintro others moved same
  rw [List.forall₂_eq_eq_eq] at same
  exact pure_matches (by rw [same])

theorem choices_match {α β : Type} {choices : List α} {parsers : α → Parser β}
    (matching : ∀ choice ∈ choices, Matches retoken bound 1 Eq (parsers choice) (parsers choice)) :
    Matches retoken bound 1 Eq (firstOf (choices.map parsers)) (firstOf (choices.map parsers)) := by
  apply first_of_matches
  rw [List.forall₂_map_left_iff, List.forall₂_map_right_iff, List.forall₂_same]
  exact matching

theorem operator_matches : Matches retoken bound 1 Eq operator operator := by
  apply choices_match
  intro op _
  apply named_matches
  apply leading_matches (symbol_matches (by cases op <;> decide))
  intro _ _ _
  exact pure_matches rfl

theorem comparison_matches : Matches retoken bound 1 Eq comparison comparison := by
  apply choices_match
  intro test _
  apply named_matches
  apply leading_matches (symbol_matches (by cases test <;> decide))
  intro _ _ _
  by_cases longer : (comparisonSign test).2 = true
  · rw [if_pos longer]
    apply then_matches (touching_matches (by decide))
    intro _ _ _
    exact pure_matches rfl
  · rw [if_neg longer]
    exact pure_matches rfl

theorem word_matches {α : Type} (spelling : String) (value : α) :
    Matches retoken bound 1 Eq (keyword spelling >>= fun _ => pure value)
      (keyword spelling >>= fun _ => pure value) :=
  leading_matches (keyword_matches spelling) (fun _ _ _ => pure_matches rfl)

theorem reducer_matches : Matches retoken bound 1 Eq reducer reducer := by
  apply first_of_matches
  exact .cons (word_matches _ _) (.cons (word_matches _ _) (.cons (word_matches _ _) .nil))

theorem split_matches : Matches retoken bound 1 Eq split split := by
  apply first_of_matches
  exact .cons (word_matches _ _) (.cons (word_matches _ _) .nil)

theorem list_of_matches {α β : Type} {related : α → β → Prop} {item : Parser α} {other : Parser β}
    (matching : Matches retoken bound 1 related item other) :
    Matches retoken bound 1 (List.Forall₂ related) (listOf item) (listOf other) := by
  have further : Matches retoken (bound - 1) 1 related (symbol ',' >>= fun _ => item)
      (symbol ',' >>= fun _ => other) := by
    apply symbol_then_matches (by decide)
    exact matching.mono (Nat.sub_le _ _) (Nat.le_refl _)
  apply leading_matches matching
  intro first moved same
  apply then_matches (many_matches further)
  intro others otherMoved all
  apply then_matches (optional_matches (symbol_matches (by decide)))
  intro _ _ _
  exact pure_matches (.cons same all)

/-! ## Operands and expressions -/

variable {recast : Recast}

theorem sign_is_plain {c : Char} (mark : c = '+' ∨ c = '-') : isPlain (.symbol c) = true := by
  rcases mark with rfl | rfl <;> decide

theorem WrittenNumber.takes {tokens rest : List Lexeme} {value : Operand}
    (written : WrittenNumber tokens value rest) : Takes 1 tokens rest := by
  cases written with
  | unsigned gap text => exact .token rfl rest
  | signed first mark gap text =>
      have digits : Takes 1 (⟨gap, .digits text⟩ :: rest) rest := .token rfl rest
      exact (Takes.append (.token (sign_is_plain mark) _) digits).lower (by omega)

/-- Where there is a number after the change, there was one before. -/
theorem WrittenNumber.unchanged {tokens others rest : List Lexeme} {value : Operand}
    (valid : retoken.Valid tokens) (applied : retoken.apply tokens = others)
    (written : WrittenNumber others value rest) : ∃ own last, WrittenNumber tokens own last := by
  -- The first token is that of the other list, and so is the second if the first is a sign.
  cases tokens with
  | nil =>
      rw [retoken.nothing valid] at applied
      subst applied
      cases written
  | cons lexeme tokens =>
      obtain ⟨gap, _, first⟩ := retoken.first valid
      rw [first] at applied
      obtain ⟨own, token⟩ := lexeme
      cases written with
      | unsigned other text =>
          obtain ⟨same, _⟩ := List.cons.inj applied
          cases same
          exact ⟨_, _, .unsigned own text tokens⟩
      | signed other mark next text =>
          obtain ⟨same, behind⟩ := List.cons.inj applied
          cases same
          have inside := retoken.rest valid (.token (sign_is_plain mark) tokens)
          cases tokens with
          | nil =>
              rw [retoken.nothing inside] at behind
              cases behind
          | cons second tokens =>
              obtain ⟨_, _, later⟩ := retoken.first inside
              rw [later] at behind
              obtain ⟨same, _⟩ := List.cons.inj behind
              obtain ⟨between, token⟩ := second
              cases same
              exact ⟨_, _, .signed own mark between text tokens⟩

theorem number_matches : Matches recast.toRetokening bound 1 recast.operand number number := by
  intro tokens short valid
  cases found : (number tokens).outcome with
  | some result =>
      obtain ⟨value, rest⟩ := result
      have written := number_reads_iff.mp found
      obtain ⟨moved, other, same⟩ := recast.number valid written
      exact Or.inr ⟨value, moved, rest, rfl, number_reads_iff.mpr other, same, written.takes⟩
  | none =>
      refine Or.inl ⟨rfl, ?_⟩
      rw [Option.eq_none_iff_forall_ne_some]
      rintro ⟨value, rest⟩ reads
      obtain ⟨own, last, written⟩ := (number_reads_iff.mp reads).unchanged valid rfl
      have missed := number_reads_iff.mpr written
      rw [Reads, found] at missed
      cases missed

theorem path_matches : Matches recast.toRetokening bound 1 recast.operand path path := by
  apply then_matches ahead_matches
  rintro start _ rfl
  apply leading_matches identifier_matches
  rintro text _ rfl
  apply then_matches ahead_matches
  rintro left _ rfl
  exact pure_matches (recast.path ⟨start, left, false⟩ text)

theorem lifecycle_matches :
    Matches recast.toRetokening bound 1 recast.operand lifecycle lifecycle := by
  apply named_matches
  apply then_matches ahead_matches
  rintro start _ rfl
  apply leading_matches (keyword_matches _)
  intro _ _ _
  apply keyword_then_matches
  refine Matches.mono ?_ (Nat.le_refl _) (Nat.zero_le 1)
  apply enclosed_matches rfl rfl (list_of_matches identifier_matches)
  intro paths moved same
  rw [List.forall₂_eq_eq_eq] at same
  subst same
  apply then_matches ahead_matches
  rintro left _ rfl
  exact pure_matches (recast.lifecycle ⟨start, left, false⟩ paths)

theorem joined_operand_matches {operand other : Parser Operand}
    (operands : Matches recast.toRetokening bound 1 recast.operand operand other) :
    Matches recast.toRetokening bound 1
      (fun next moved => moved.1 = next.1 ∧ recast.operand next.2 moved.2)
      (operator >>= fun op => operand >>= fun next => pure (op, next))
      (operator >>= fun op => other >>= fun next => pure (op, next)) := by
  apply leading_matches operator_matches
  rintro op _ rfl
  apply then_matches (operands.mono (Nat.sub_le _ _) (Nat.le_refl _))
  intro next moved same
  exact pure_matches ⟨rfl, same⟩

theorem chain_matches {operand other : Parser Operand}
    (operands : Matches recast.toRetokening bound 1 recast.operand operand other) :
    Matches recast.toRetokening bound 1 recast.chain (chain operand) (chain other) := by
  have further := operands.mono (Nat.sub_le bound 1) (Nat.le_refl 1)
  apply named_matches
  apply leading_matches operands
  intro first moved same
  apply then_matches (many_matches (joined_operand_matches further))
  intro others otherMoved all
  exact pure_matches (recast.of_list same all)

section Nested

variable {operand other : Parser Operand} {phrase otherPhrase : Parser Phrase}
  (operands : Matches recast.toRetokening (bound - 1) 1 recast.operand operand other)
  (phrases : Matches recast.toRetokening (bound - 1) 1 recast.phrase phrase otherPhrase)

include operands

theorem uniform_matches :
    Matches recast.toRetokening bound 1 recast.operand (uniform operand) (uniform other) := by
  apply named_matches
  apply then_matches ahead_matches
  rintro start _ rfl
  apply leading_matches (keyword_matches _)
  intro _ _ _
  apply keyword_then_matches
  apply keyword_then_matches
  apply then_matches (chain_matches operands)
  intro low otherLow lows
  apply keyword_then_matches
  apply then_matches (chain_matches operands)
  intro high otherHigh highs
  apply then_matches ahead_matches
  rintro left _ rfl
  rw [recast.spaced highs]
  exact pure_matches (recast.uniform ⟨start, left, high.extent.spaced⟩ lows highs)

theorem normal_matches :
    Matches recast.toRetokening bound 1 recast.operand (normal operand) (normal other) := by
  apply named_matches
  apply then_matches ahead_matches
  rintro start _ rfl
  apply leading_matches (keyword_matches _)
  intro _ _ _
  apply keyword_then_matches
  apply keyword_then_matches
  apply keyword_then_matches
  apply keyword_then_matches
  apply then_matches (chain_matches operands)
  intro mean otherMean means
  apply keyword_then_matches
  apply keyword_then_matches
  apply then_matches (chain_matches operands)
  intro deviation otherDeviation deviations
  apply then_matches ahead_matches
  rintro left _ rfl
  rw [recast.spaced deviations]
  exact pure_matches (recast.normal ⟨start, left, deviation.extent.spaced⟩ means deviations)

theorem condition_matches :
    Matches recast.toRetokening (bound - 1) 1
      (fun found moved => recast.chain found.1 moved.1 ∧ moved.2.1 = found.2.1 ∧
        recast.chain found.2.2 moved.2.2)
      (condition operand) (condition other) := by
  apply named_matches
  apply leading_matches (chain_matches operands)
  intro left otherLeft lefts
  apply then_matches comparison_matches
  rintro test _ rfl
  apply then_matches ((chain_matches operands).mono (by omega) (Nat.le_refl _))
  intro right otherRight rights
  exact pure_matches ⟨lefts, rfl, rights⟩

include phrases

theorem repetition_matches : Matches recast.toRetokening bound 1 recast.operand
    (repetition operand phrase) (repetition other otherPhrase) := by
  apply named_matches
  apply then_matches ahead_matches
  rintro start _ rfl
  apply leading_matches reducer_matches
  rintro reduce _ rfl
  apply then_matches operands
  intro times otherTimes counts
  apply keyword_then_matches
  apply keyword_then_matches
  apply then_matches phrases
  intro body otherBody bodies
  apply then_matches ahead_matches
  rintro left _ rfl
  exact pure_matches (recast.repeated ⟨start, left, true⟩ reduce counts bodies)

omit operands in
theorem group_matches :
    Matches recast.toRetokening bound 1 recast.operand (group phrase) (group otherPhrase) := by
  apply named_matches
  apply then_matches ahead_matches
  rintro start _ rfl
  apply enclosed_matches rfl rfl phrases
  intro body otherBody bodies
  apply then_matches ahead_matches
  rintro left _ rfl
  exact pure_matches (recast.group ⟨start, left, false⟩ bodies)

theorem operand_of_matches : Matches recast.toRetokening bound 1 recast.operand
    (operandOf operand phrase) (operandOf other otherPhrase) := by
  apply first_of_matches
  exact .cons number_matches (.cons lifecycle_matches (.cons (uniform_matches operands)
    (.cons (normal_matches operands) (.cons (repetition_matches operands phrases)
      (.cons (group_matches phrases) (.cons path_matches .nil))))))

theorem conditional_matches : Matches recast.toRetokening bound 1
    (fun found moved => (recast.chain found.1.1 moved.1.1 ∧ moved.1.2.1 = found.1.2.1 ∧
      recast.chain found.1.2.2 moved.1.2.2) ∧ recast.phrase found.2 moved.2)
    (conditional operand phrase) (conditional other otherPhrase) := by
  apply named_matches
  apply leading_matches (keyword_matches _)
  intro _ _ _
  apply then_matches (condition_matches operands)
  intro test otherTest tests
  apply keyword_then_matches
  apply then_matches phrases
  intro alternative otherAlternative alternatives
  exact pure_matches ⟨tests, alternatives⟩

end Nested

theorem phrase_of_matches {operand other : Parser Operand} {phrase otherPhrase : Parser Phrase}
    (operands : Matches recast.toRetokening bound 1 recast.operand operand other)
    (phrases : Matches recast.toRetokening (bound - 1) 1 recast.phrase phrase otherPhrase) :
    Matches recast.toRetokening bound 1 recast.phrase (phraseOf operand phrase)
      (phraseOf other otherPhrase) := by
  have fewer : bound - 1 - 1 ≤ bound - 1 := Nat.sub_le _ _
  apply named_matches
  apply leading_matches (chain_matches operands)
  intro value moved same
  apply then_matches (optional_matches (conditional_matches
    (operands.mono (by omega) (Nat.le_refl _)) (phrases.mono fewer (Nat.le_refl _))))
  intro found otherFound tests
  cases tests with
  | none => exact pure_matches (recast.plain same)
  | @some found otherFound tests =>
      obtain ⟨⟨left, test, right⟩, alternative⟩ := found
      obtain ⟨⟨otherLeft, otherTest, otherRight⟩, otherAlternative⟩ := otherFound
      obtain ⟨⟨lefts, rfl, rights⟩, alternatives⟩ := tests
      exact pure_matches (recast.conditional otherTest same lefts rights alternatives)

/-- Parsers for phrases that match on fewer than `bound` tokens. -/
structure LevelsMatch (recast : Recast) (bound : Nat) (parsers others : Level) : Prop where
  operand : Matches recast.toRetokening bound 1 recast.operand parsers.operand others.operand
  phrase : Matches recast.toRetokening bound 1 recast.phrase parsers.phrase others.phrase

/-- More levels than there are tokens make no difference. -/
theorem levels_match (recast : Recast) {depth other : Nat} (deeper : depth ≤ other) :
    LevelsMatch recast depth (level depth) (level other) := by
  -- Whatever is nested stands behind a token, so the inner parsers see one token fewer.
  induction depth generalizing other with
  | zero => exact ⟨no_tokens_match _ _, no_tokens_match _ _⟩
  | succ depth induction =>
      cases other with
      | zero => omega
      | succ other =>
          have inner := induction (Nat.le_of_succ_le_succ deeper)
          have operand : Matches recast.toRetokening (depth + 1) 1 recast.operand
              (level (depth + 1)).operand (level (other + 1)).operand :=
            operand_of_matches inner.operand inner.phrase
          exact ⟨operand, phrase_of_matches operand inner.phrase⟩

/-! ## Statements -/

def bounds (parsers : Level) : Parser (Option Phrase × Option Phrase) := do
  let lower ← optional (named .lowerBound parsers.phrase)
  symbol ','
  let upper ← optional (named .upperBound parsers.phrase)
  pure (lower, upper)

theorem bounds_outcome (parsers : Level) (place : String) (tokens : List Lexeme) :
    ((symbol '[' >>= fun _ => optional (named .lowerBound parsers.phrase) >>= fun lower =>
      symbol ',' >>= fun _ => optional (named .upperBound parsers.phrase) >>= fun upper =>
        symbol ']' >>= fun _ => pure (StatementForm.limit place lower upper)) tokens).outcome =
      ((symbol '[' >>= fun _ => bounds parsers >>= fun found =>
        symbol ']' >>= fun _ => pure (StatementForm.limit place found.1 found.2)) tokens).outcome := by
  simp only [bounds, bind_outcome, Option.bind_assoc]
  rfl

section Statements

variable {parsers others : Level} (levels : LevelsMatch recast (bound - 1) parsers others)

include levels

theorem definition_matches : Matches recast.toRetokening bound 1 recast.Form
    (definition parsers) (definition others) := by
  apply named_matches
  apply leading_matches (keyword_matches _)
  intro _ _ _
  apply then_matches identifier_matches
  rintro name _ rfl
  apply symbol_then_matches (by decide)
  apply then_matches levels.phrase
  intro value moved same
  exact pure_matches (.definition name same)

theorem assignment_matches : Matches recast.toRetokening bound 1 recast.Form
    (assignment parsers) (assignment others) := by
  apply named_matches
  apply leading_matches identifier_matches
  rintro target _ rfl
  apply symbol_then_matches (by decide)
  apply then_matches levels.phrase
  intro value moved same
  exact pure_matches (.assignment target same)

theorem bounds_match : Matches recast.toRetokening (bound - 1 - 1) 0
    (fun found moved => Option.Rel recast.phrase found.1 moved.1 ∧ Option.Rel recast.phrase found.2 moved.2)
    (bounds parsers) (bounds others) := by
  have phrases := levels.phrase.mono (Nat.sub_le (bound - 1) 1) (Nat.le_refl 1)
  apply then_matches (optional_matches (named_matches phrases))
  intro lower otherLower lowers
  apply symbol_then_matches (by decide)
  apply then_matches (optional_matches (named_matches phrases))
  intro upper otherUpper uppers
  exact pure_matches ⟨lowers, uppers⟩

theorem limit_matches : Matches recast.toRetokening bound 1 recast.Form
    (limit parsers) (limit others) := by
  apply named_matches
  apply leading_matches (keyword_matches _)
  intro _ _ _
  apply then_matches identifier_matches
  rintro target _ rfl
  apply keyword_then_matches
  refine Matches.of_outcomes ?_ (bounds_outcome parsers target) (bounds_outcome others target)
  refine Matches.mono ?_ (Nat.le_refl _) (Nat.zero_le 1)
  apply enclosed_matches rfl rfl (bounds_match levels)
  rintro found moved ⟨lowers, uppers⟩
  exact pure_matches (.limit target lowers uppers)

theorem target_matches : Matches recast.toRetokening (bound - 1) 1
    (fun target other => other.1 = target.1 ∧ Option.Rel recast.chain target.2 other.2)
    (target parsers) (target others) := by
  have weights : Matches recast.toRetokening (bound - 1) 1 recast.chain
      (keyword "by" >>= fun _ => chain parsers.operand)
      (keyword "by" >>= fun _ => chain others.operand) := by
    apply keyword_then_matches
    exact chain_matches levels.operand
  apply named_matches
  apply leading_matches identifier_matches
  rintro place _ rfl
  apply then_matches (optional_matches (named_matches (weights.mono (by omega) (Nat.le_refl _))))
  intro weight otherWeight same
  exact pure_matches ⟨rfl, same⟩

theorem distribute_matches : Matches recast.toRetokening bound 1 recast.Form
    (distribute parsers) (distribute others) := by
  apply named_matches
  apply leading_matches (keyword_matches _)
  intro _ _ _
  apply then_matches levels.phrase
  intro value moved same
  apply keyword_then_matches
  refine Matches.mono ?_ (Nat.le_refl _) (Nat.zero_le 1)
  apply enclosed_matches rfl rfl
    ((list_of_matches (target_matches levels)).mono (Nat.sub_le _ _) (Nat.le_refl _))
  intro targets otherTargets places
  apply then_matches split_matches
  rintro how _ rfl
  exact pure_matches (.distribute how same places)

theorem change_matches : Matches recast.toRetokening bound 1 recast.Form
    (change parsers) (change others) := by
  apply named_matches
  apply leading_matches (keyword_matches _)
  intro _ _ _
  apply then_matches identifier_matches
  rintro place _ rfl
  apply keyword_then_matches
  apply then_matches (chain_matches levels.operand)
  intro delta otherDelta deltas
  apply keyword_then_matches
  apply then_matches (chain_matches levels.operand)
  intro start otherStart starts
  apply keyword_then_matches
  apply then_matches (chain_matches levels.operand)
  intro finish otherFinish finishes
  exact pure_matches (.change place deltas starts finishes)

theorem inspect_matches : Matches recast.toRetokening bound 1 recast.Form
    (inspect parsers) (inspect others) := by
  apply named_matches
  apply leading_matches (keyword_matches _)
  intro _ _ _
  apply then_matches (with_text_matches levels.phrase)
  rintro ⟨text, value⟩ ⟨_, moved⟩ ⟨rfl, same⟩
  exact pure_matches (.inspect _ same)

def anyForm (parsers : Level) : Parser StatementForm :=
  firstOf [definition parsers, limit parsers, distribute parsers, change parsers,
    inspect parsers, assignment parsers]

theorem any_form_matches : Matches recast.toRetokening bound 1 recast.Form
    (anyForm parsers) (anyForm others) := by
  apply first_of_matches
  exact .cons (definition_matches levels) (.cons (limit_matches levels)
    (.cons (distribute_matches levels) (.cons (change_matches levels)
      (.cons (inspect_matches levels) (.cons (assignment_matches levels) .nil)))))

end Statements

theorem forms_match (recast : Recast) {depth other : Nat} (deeper : depth ≤ other) :
    Matches recast.toRetokening depth 1 recast.Form (anyForm (level depth))
      (anyForm (level other)) := by
  have levels := levels_match recast deeper
  have fewer := Nat.sub_le depth 1
  exact any_form_matches ⟨levels.operand.mono fewer (Nat.le_refl 1),
    levels.phrase.mono fewer (Nat.le_refl 1)⟩

end PolicyLevers.Script.Grammar
