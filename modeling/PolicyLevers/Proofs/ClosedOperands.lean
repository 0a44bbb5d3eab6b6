import PolicyLevers.Proofs.JoinedTokens
import PolicyLevers.Proofs.PrintedExpressions

/-!
# Operands that other tokens follow

A number, a path, a lifecycle list or an expression in parentheses shows by its own tokens where it ends.
So it is read in front of other tokens as it is read alone, and operands of these kinds with operators
between them are read one after another as a chain.
-/

namespace PolicyLevers.Script.Grammar

set_option autoImplicit false

open PolicyLevers.Script.Parser

/-! ## Parts that are read one token after another -/

theorem further_word_reads_iff {tokens rest : List Lexeme} {text : List Char} :
    furtherWord.Reads tokens text rest ↔
      ∃ word, tokens = ⟨.none, .symbol '.'⟩ :: ⟨.none, .word word⟩ :: rest ∧ text = '.' :: word := by
  constructor
  · intro found
    obtain ⟨_, behind, point, others⟩ := bind_reads_iff.mp found
    obtain ⟨word, _, part, ending⟩ := bind_reads_iff.mp others
    cases ending
    obtain ⟨⟨gap, first⟩, rfl, touches⟩ := token_reads_iff.mp point
    obtain ⟨⟨between, second⟩, rfl, accepted⟩ := token_reads_iff.mp part
    obtain ⟨rfl, rfl⟩ : gap = .none ∧ first = .symbol '.' := by simpa using touches
    cases between with
    | none =>
        cases second with
        | word own =>
            cases accepted
            exact ⟨word, rfl, rfl⟩
        | digits own => cases accepted
        | symbol c => cases accepted
    | blank => cases accepted
    | comment => cases accepted
  · rintro ⟨word, rfl, rfl⟩
    exact bind_reads (touching_reads '.' _) (bind_reads (token_reads _ rfl) (pure_reads _ _))

theorem further_word_shrinks (bound : Nat) : Shrinks bound furtherWord := by
  intro tokens text rest _ found
  obtain ⟨word, rfl, _⟩ := further_word_reads_iff.mp found
  simp only [List.length_cons]
  omega

theorem further_words_before {tokens more : List Lexeme} {others : List (List Char)}
    (noPoint : (touching '.').Misses more) (repeated : Repeats furtherWord tokens others []) :
    Repeats furtherWord (tokens ++ more) others more := by
  generalize last : ([] : List Lexeme) = rest at repeated
  induction repeated with
  | stop missed =>
      subst last
      exact .stop (bind_misses _ noPoint)
  | more found shorter _ induction =>
      obtain ⟨word, rfl, rfl⟩ := further_word_reads_iff.mp found
      exact .more (further_word_reads_iff.mpr ⟨word, rfl, rfl⟩)
        (Nat.lt_succ_of_lt (Nat.lt_succ_self _)) (induction last)

theorem identifier_before {tokens more : List Lexeme} {text : String}
    (noPoint : (touching '.').Misses more) (found : identifier.Reads tokens text []) :
    identifier.Reads (tokens ++ more) text more := by
  unfold Reads identifier at found
  rw [named_outcome] at found
  obtain ⟨first, middle, leads, behind⟩ := bind_reads_iff.mp found
  obtain ⟨others, last, points, ending⟩ := bind_reads_iff.mp behind
  cases ending
  obtain ⟨lexeme, rfl, accepted⟩ := token_reads_iff.mp leads
  have repeated := repeats_of_many (further_word_shrinks _) (Nat.lt_succ_self _) (Nat.lt_succ_self _) points
  exact named_reads (bind_reads (token_reads _ accepted)
    (bind_reads (many_reads (further_words_before noPoint repeated)) (pure_reads _ _)))

/-! ## Parts in brackets -/

/-- What stands in front of a closing bracket is read the same in front of further tokens. -/
theorem reads_in_brackets {α : Type} {bound least : Nat} {relatedAlone related : α → α → Prop}
    {inner rest : List Lexeme} {last : Lexeme} {parser same other : Parser α} {value : α}
    (more : List Lexeme)
    (alone : Matches (appending []) bound least relatedAlone parser same)
    (matching : Matches (appending more) bound least related parser other)
    (short : inner.length < bound) (closing : isClosing last.token = true)
    (found : parser.Reads inner value (last :: rest)) :
    ∃ moved, other.Reads (inner ++ more) moved (last :: (rest ++ more)) ∧ related value moved := by
  obtain ⟨front, whole, _, balanced⟩ := (alone inner short (Or.inl rfl)).takes found
  have guarded : closes 0 inner = true := by
    rw [whole, closes_behind balanced, closes, closing_is_no_opening closing, closing]
    rfl
  rcases matching inner short (Or.inr (Or.inr guarded)) with
    ⟨missed, _⟩ | ⟨own, moved, behind, reads, otherReads, corresponds, _⟩
  · rw [Reads, missed] at found
    cases found
  · rw [Reads, reads] at found
    cases found
    exact ⟨moved, otherReads, corresponds⟩

theorem lifecycle_reads_iff {tokens rest : List Lexeme} {operand : Operand} :
    lifecycle.Reads tokens operand rest ↔
      ∃ first second third last inner paths,
        tokens = ⟨first, .word "lifecycle".toList⟩ :: ⟨second, .word "of".toList⟩ ::
          ⟨third, .symbol '['⟩ :: inner ∧
        (listOf identifier).Reads inner paths (⟨last, .symbol ']'⟩ :: rest) ∧
        operand = .lifecycle ⟨tokens.length, rest.length, false⟩ paths := by
  constructor
  · intro found
    unfold Reads lifecycle at found
    rw [named_outcome] at found
    obtain ⟨_, _, start, found⟩ := bind_reads_iff.mp found
    cases start
    obtain ⟨_, _, word, found⟩ := bind_reads_iff.mp found
    obtain ⟨first, rfl⟩ := keyword_reads_iff.mp word
    obtain ⟨_, _, word, found⟩ := bind_reads_iff.mp found
    obtain ⟨second, rfl⟩ := keyword_reads_iff.mp word
    obtain ⟨_, _, bracket, found⟩ := bind_reads_iff.mp found
    obtain ⟨third, rfl⟩ := symbol_reads_iff.mp bracket
    obtain ⟨paths, _, list, found⟩ := bind_reads_iff.mp found
    obtain ⟨_, _, bracket, found⟩ := bind_reads_iff.mp found
    obtain ⟨last, rfl⟩ := symbol_reads_iff.mp bracket
    obtain ⟨_, _, left, found⟩ := bind_reads_iff.mp found
    cases left
    cases found
    exact ⟨first, second, third, last, _, paths, rfl, list, rfl⟩
  · rintro ⟨first, second, third, last, inner, paths, rfl, list, rfl⟩
    exact named_reads (bind_reads (ahead_reads _) (bind_reads (keyword_reads _ _ _)
      (bind_reads (keyword_reads _ _ _) (bind_reads (symbol_reads _ _ _) (bind_reads list
        (bind_reads (symbol_reads _ _ _) (bind_reads (ahead_reads _) (pure_reads _ _))))))))

theorem group_reads_iff {phrase : Parser Phrase} {tokens rest : List Lexeme} {operand : Operand} :
    (group phrase).Reads tokens operand rest ↔
      ∃ first last inner body, tokens = ⟨first, .symbol '('⟩ :: inner ∧
        phrase.Reads inner body (⟨last, .symbol ')'⟩ :: rest) ∧
        operand = .group ⟨tokens.length, rest.length, false⟩ body := by
  constructor
  · intro found
    unfold Reads group at found
    rw [named_outcome] at found
    obtain ⟨_, _, start, found⟩ := bind_reads_iff.mp found
    cases start
    obtain ⟨_, _, bracket, found⟩ := bind_reads_iff.mp found
    obtain ⟨first, rfl⟩ := symbol_reads_iff.mp bracket
    obtain ⟨body, _, inside, found⟩ := bind_reads_iff.mp found
    obtain ⟨_, _, bracket, found⟩ := bind_reads_iff.mp found
    obtain ⟨last, rfl⟩ := symbol_reads_iff.mp bracket
    obtain ⟨_, _, left, found⟩ := bind_reads_iff.mp found
    cases left
    cases found
    exact ⟨first, last, _, body, rfl, inside, rfl⟩
  · rintro ⟨first, last, inner, body, rfl, inside, rfl⟩
    exact named_reads (bind_reads (ahead_reads _) (bind_reads (symbol_reads _ _ _) (bind_reads inside
      (bind_reads (symbol_reads _ _ _) (bind_reads (ahead_reads _) (pure_reads _ _))))))

/-! ## Operands -/

/-- The tokens are a number, a path, a lifecycle list or an expression in parentheses. -/
inductive IsOperand (tokens : List Lexeme) (operand : Operand) : Prop where
  | number (found : number.Reads tokens operand [])
  | path (found : path.Reads tokens operand [])
  | lifecycle (found : lifecycle.Reads tokens operand [])
  | group (found : (group (level tokens.length).phrase).Reads tokens operand [])

namespace IsOperand

variable {tokens more : List Lexeme} {operand : Operand}

theorem lifecycle_before (more : List Lexeme) (found : Grammar.lifecycle.Reads tokens operand []) :
    Grammar.lifecycle.Reads (tokens ++ more) (operand.move more.length) more := by
  obtain ⟨first, second, third, last, inner, paths, rfl, list, rfl⟩ := lifecycle_reads_iff.mp found
  have names {retoken : Retokening} : Matches retoken (inner.length + 1) 1 (List.Forall₂ Eq)
      (listOf identifier) (listOf identifier) := list_of_matches identifier_matches
  obtain ⟨moved, reads, same⟩ := reads_in_brackets more names names (Nat.lt_succ_self _) rfl list
  rw [List.forall₂_eq_eq_eq] at same
  refine lifecycle_reads_iff.mpr ⟨first, second, third, last, inner ++ more, moved, rfl, reads, ?_⟩
  simp [same, Operand.move, Extent.move]
  omega

theorem group_before {depth : Nat} (deeper : tokens.length ≤ depth) (more : List Lexeme)
    (found : (Grammar.group (level tokens.length).phrase).Reads tokens operand []) :
    (Grammar.group (level depth).phrase).Reads (tokens ++ more) (operand.move more.length) more := by
  obtain ⟨first, last, inner, body, rfl, inside, rfl⟩ := group_reads_iff.mp found
  have alone := (levels_match (moving []) (Nat.le_refl (inner.length + 1))).phrase
  have matching := (levels_match (moving more) deeper).phrase
  obtain ⟨moved, reads, rfl⟩ := reads_in_brackets more alone matching (Nat.lt_succ_self _) rfl inside
  refine group_reads_iff.mpr ⟨first, last, inner ++ more, _, rfl, reads, ?_⟩
  simp [Operand.move, Extent.move]
  omega

theorem path_before (noPoint : (touching '.').Misses more) (found : Grammar.path.Reads tokens operand []) :
    Grammar.path.Reads (tokens ++ more) (operand.move more.length) more := by
  obtain ⟨_, _, start, behind⟩ := bind_reads_iff.mp found
  cases start
  obtain ⟨text, _, name, others⟩ := bind_reads_iff.mp behind
  obtain ⟨_, _, left, ending⟩ := bind_reads_iff.mp others
  cases left
  cases ending
  refine bind_reads (ahead_reads _) (bind_reads (identifier_before noPoint name)
    (bind_reads (ahead_reads _) ?_))
  rw [List.length_append]
  exact congrArg (fun left => some (Operand.path ⟨tokens.length + more.length, left, false⟩ text, more))
    (Nat.zero_add _).symm

theorem path_first (found : Grammar.path.Reads tokens operand []) :
    ∃ text, firstToken tokens = some (.word text) ∧
      keywords.contains (String.ofList text) = false := by
  obtain ⟨_, _, start, behind⟩ := bind_reads_iff.mp found
  cases start
  obtain ⟨text, _, name, _⟩ := bind_reads_iff.mp behind
  unfold Reads identifier at name
  rw [named_outcome] at name
  obtain ⟨first, _, leads, _⟩ := bind_reads_iff.mp name
  obtain ⟨⟨gap, token⟩, rfl, accepted⟩ := token_reads_iff.mp leads
  cases token with
  | word own =>
      refine ⟨own, rfl, ?_⟩
      cases keyword : keywords.contains (String.ofList own) with
      | false => rfl
      | true => simp only [keyword, if_true, reduceCtorEq] at accepted
  | digits own => cases accepted
  | symbol c => cases accepted

theorem first_before {token : Token} (first : firstToken tokens = some token) :
    firstToken (tokens ++ more) = some token := by
  cases tokens with
  | nil => cases first
  | cons lexeme rest => exact first

/-- An operand is read in front of other tokens if these do not carry on a path. -/
theorem before (is : IsOperand tokens operand) (noPoint : (touching '.').Misses more) {depth : Nat}
    (deeper : tokens.length ≤ depth) :
    (level (depth + 1)).operand.Reads (tokens ++ more) (operand.move more.length) more := by
  cases is with
  | number found =>
      have written := (number_reads_iff.mp found).before more
      exact or_else_reads_first _ (number_reads_iff.mpr written)
  | path found =>
      obtain ⟨text, first, noKeyword⟩ := path_first found
      exact operand_reads_path (first_before first) noKeyword (path_before noPoint found)
  | lifecycle found =>
      obtain ⟨gap, _, _, _, _, _, rfl, _⟩ := lifecycle_reads_iff.mp found
      exact operand_reads_lifecycle rfl (lifecycle_before more found)
  | group found =>
      have reads := group_before deeper more found
      obtain ⟨gap, _, _, _, rfl, _⟩ := group_reads_iff.mp found
      exact operand_reads_group rfl reads

theorem other_gap {gap other : Gap} {first : Token} {rest : List Lexeme}
    (is : IsOperand (⟨gap, first⟩ :: rest) operand) : IsOperand (⟨other, first⟩ :: rest) operand := by
  cases is with
  | number found =>
      refine .number (number_reads_iff.mpr ?_)
      cases number_reads_iff.mp found with
      | unsigned gap text => exact .unsigned other text []
      | signed before mark gap text => exact .signed other mark gap text []
  | path found =>
      have ignores : IgnoresGap Grammar.path := ahead_bind_ignores_gap (fun _ =>
        bind_ignores_gap _ (named_ignores_gap _ (bind_ignores_gap _
          (token_ignores_gap (fun _ _ _ => rfl)))))
      exact .path ((ignores other gap first rest).trans found)
  | lifecycle found =>
      have ignores : IgnoresGap Grammar.lifecycle := named_ignores_gap _ (ahead_bind_ignores_gap
        (fun _ => bind_ignores_gap _ (keyword_ignores_gap _)))
      exact .lifecycle ((ignores other gap first rest).trans found)
  | group found =>
      have ignores (phrase : Parser Phrase) : IgnoresGap (Grammar.group phrase) :=
        named_ignores_gap _ (ahead_bind_ignores_gap (fun _ =>
          bind_ignores_gap _ (token_ignores_gap (fun _ _ _ => rfl))))
      exact .group ((ignores _ other gap first rest).trans found)

theorem visible (is : IsOperand tokens operand) : tokens ≠ [] := by
  rintro rfl
  cases is with
  | number found => cases number_reads_iff.mp found
  | path found => cases found
  | lifecycle found => cases found
  | group found => cases found

end IsOperand

/-! ## Operators with operands behind them -/

theorem mark_is_no_point {c : Char} (other : c ≠ '.') (gap : Gap) (rest : List Lexeme) :
    (touching '.').Misses (⟨gap, .symbol c⟩ :: rest) := by
  apply token_misses
  rintro lexeme ⟨⟩
  simp [other]

theorem operator_found (op : BinaryOp) (gap : Gap) (rest : List Lexeme) :
    operator.Reads (⟨gap, .symbol (operatorSign op)⟩ :: rest) op rest := by
  cases op <;> rfl

theorem joined_operand_reads {depth : Nat} {tokens more : List Lexeme} {operand : Operand}
    (deeper : tokens.length ≤ depth) (op : BinaryOp) (gap : Gap) (is : IsOperand tokens operand)
    (noPoint : (touching '.').Misses more) :
    Reads (operator >>= fun op => (level (depth + 1)).operand >>= fun next => pure (op, next))
      (⟨gap, .symbol (operatorSign op)⟩ :: (tokens ++ more)) (op, operand.move more.length) more :=
  bind_reads (operator_found op gap _) (bind_reads (is.before noPoint deeper) (pure_reads _ _))

end PolicyLevers.Script.Grammar

namespace PolicyLevers.Script

theorem Chain.of_list_joined (first : Operand) (others : List (BinaryOp × Operand)) :
    (Chain.ofList first others).toJoined =
      ⟨first.toExpr, others.map (fun (op, operand) => (op, operand.toExpr))⟩ := by
  induction others generalizing first with
  | nil => rfl
  | cons next rest induction =>
      rw [Chain.ofList, Chain.toJoined, induction]
      rfl

theorem Chain.of_list_unbroken {first : Operand} {others : List (BinaryOp × Operand)}
    (unbroken : first.Unbroken) (all : ∀ next ∈ others, next.2.Unbroken) :
    (Chain.ofList first others).Unbroken := by
  induction others generalizing first with
  | nil => exact unbroken
  | cons next rest induction =>
      obtain ⟨here, later⟩ := List.forall_mem_cons.mp all
      exact ⟨unbroken, induction here later⟩

theorem Operand.unbroken_move (count : Nat) {operand : Operand} (unbroken : operand.Unbroken) :
    (operand.move count).Unbroken := by
  have faultless := (operand.faults_nil_iff operand.height 0).mpr ⟨unbroken, by omega⟩
  have moved := Operand.faults_move operand.height 0 count operand
  rw [faultless, List.map_nil] at moved
  exact ((Operand.faults_nil_iff _ _ _).mp moved).1

end PolicyLevers.Script
