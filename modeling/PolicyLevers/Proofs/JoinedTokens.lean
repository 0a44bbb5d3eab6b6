import PolicyLevers.Proofs.GrammarMatching

/-!
# Tokens of two scripts in a row

A statement ends with its semicolon, and what is found up to there does not depend on the tokens behind;
neither does what is found in front of the bracket that ends an expression.  So the tokens of a whole script
can be followed by those of another, and reading them all gives the statements of the first and then what
the second alone would give.
-/

namespace PolicyLevers.Script.Grammar

set_option autoImplicit false

open PolicyLevers.Script.Parser

/-! ## Tokens put behind a semicolon or a bracket -/

/-- With `depth` brackets open, some bracket of the tokens closes more than that. -/
def closes : Nat → List Lexeme → Bool
  | _, [] => false
  | depth, lexeme :: rest =>
    if isOpening lexeme.token then closes (depth + 1) rest
    else if isClosing lexeme.token then depth == 0 || closes (depth - 1) rest
    else closes depth rest

theorem plain_is_no_bracket {token : Token} (plain : isPlain token = true) :
    isOpening token = false ∧ isClosing token = false := by
  have marks : plainMarks.all (fun c => !isOpening (.symbol c) && !isClosing (.symbol c)) = true := by
    decide +kernel
  cases token with
  | symbol c => simpa using List.all_eq_true.mp marks c (List.contains_iff_mem.mp plain)
  | word text => exact ⟨rfl, rfl⟩
  | digits text => exact ⟨rfl, rfl⟩

theorem closing_is_no_opening {token : Token} (closing : isClosing token = true) :
    isOpening token = false := by
  cases token with
  | symbol c =>
      rcases (by simpa [isClosing] using closing : c = ')' ∨ c = ']') with rfl | rfl <;> rfl
  | word text => rfl
  | digits text => rfl

/-- Balanced tokens close no bracket that is open in front of them. -/
theorem closes_behind {taken : List Lexeme} (balanced : Balanced taken) (depth : Nat)
    (rest : List Lexeme) : closes depth (taken ++ rest) = closes depth rest := by
  induction balanced generalizing depth rest with
  | nothing => rfl
  | token plain =>
      obtain ⟨noOpening, noClosing⟩ := plain_is_no_bracket plain
      simp [closes, noOpening, noClosing]
  | append _ _ first second => rw [List.append_assoc, first, second]
  | enclosed opens _ bracket inside =>
      simp [closes, opens, inside, bracket, closing_is_no_opening bracket]

theorem closes_earlier {depth : Nat} {tokens : List Lexeme} (closed : closes (depth + 1) tokens = true) :
    closes depth tokens = true := by
  induction tokens generalizing depth with
  | nil => exact closed
  | cons lexeme rest induction =>
      rw [closes] at closed ⊢
      split_ifs at closed ⊢ with opening closing
      · exact induction closed
      · cases depth with
        | zero => rfl
        | succ depth => exact induction (by simpa using closed)
      · exact induction closed

/-- If anything is put behind the tokens, a semicolon stands in front of it, or a bracket that is not
opened among them. -/
def Guarded (more tokens : List Lexeme) : Prop :=
  more = [] ∨ (∃ lexeme ∈ tokens, lexeme.token = .symbol ';') ∨ closes 0 tokens = true

theorem guarded_nothing {more : List Lexeme} (guarded : Guarded more []) : more = [] := by
  rcases guarded with nothing | ⟨lexeme, member, _⟩ | closed
  · exact nothing
  · cases member
  · cases closed

theorem semicolon_is_not_inner {lexeme : Lexeme} (semicolon : lexeme.token = .symbol ';') :
    isInner lexeme.token = false := by
  rw [semicolon]
  rfl

/-- More tokens behind a list; its own stay as they are. -/
def appending (more : List Lexeme) : Retokening where
  apply tokens := tokens ++ more
  count := more.length
  Valid := Guarded more
  valid_behind := by
    rintro taken rest (nothing | ⟨other, member, semicolon⟩ | closed) balanced
    · exact Or.inl nothing
    · rcases List.mem_append.mp member with before | behind
      · have inner := balanced.inner other before
        rw [semicolon_is_not_inner semicolon] at inner
        cases inner
      · exact Or.inr (Or.inl ⟨other, behind, semicolon⟩)
    · rw [closes_behind balanced] at closed
      exact Or.inr (Or.inr closed)
  valid_inside := by
    rintro lexeme rest (nothing | ⟨other, member, semicolon⟩ | closed) opens
    · exact Or.inl nothing
    · rcases List.mem_cons.mp member with rfl | member
      · have inner := opening_is_inner opens
        rw [semicolon_is_not_inner semicolon] at inner
        cases inner
      · exact Or.inr (Or.inl ⟨other, member, semicolon⟩)
    · rw [closes, if_pos opens] at closed
      exact Or.inr (Or.inr (closes_earlier closed))
  nothing := guarded_nothing
  first := fun _ => ⟨_, Iff.rfl, rfl⟩
  length := fun _ => List.length_append

theorem WrittenNumber.before {tokens rest : List Lexeme} {value : Operand}
    (written : WrittenNumber tokens value rest) (more : List Lexeme) :
    WrittenNumber (tokens ++ more) (value.move more.length) (rest ++ more) := by
  cases written with
  | unsigned gap text =>
      have written := WrittenNumber.unsigned gap text (rest ++ more)
      rwa [List.length_append, Nat.add_right_comm] at written
  | signed first mark gap text =>
      have written := WrittenNumber.signed first mark gap text (rest ++ more)
      rwa [List.length_append, Nat.add_right_comm] at written

def moving (more : List Lexeme) : Recast where
  toRetokening := appending more
  operand value moved := moved = value.move more.length
  chain value moved := moved = value.move more.length
  phrase value moved := moved = value.move more.length
  number _ written := ⟨_, written.before more, rfl⟩
  path _ _ := rfl
  lifecycle _ _ := rfl
  uniform _ := by rintro rfl rfl; rfl
  normal _ := by rintro rfl rfl; rfl
  repeated _ _ := by rintro rfl rfl; rfl
  group _ := by rintro rfl; rfl
  last := by rintro value _ rfl; rfl
  join _ := by rintro rfl rfl; rfl
  plain := by rintro value _ rfl; rfl
  conditional _ := by rintro rfl rfl rfl rfl; rfl
  spaced := by
    rintro value _ rfl
    rw [Chain.extent_move]
    rfl

theorem moving_form {more : List Lexeme} {form moved : StatementForm}
    (same : (moving more).Form form moved) : moved = form.move more.length := by
  cases same with
  | definition name same => exact congrArg (StatementForm.definition name) same
  | assignment target same => exact congrArg (StatementForm.assignment target) same
  | limit target lowers uppers =>
      rw [optional_eq_map lowers, optional_eq_map uppers, StatementForm.move]
  | @distribute value _ targets others split same places =>
      have all : others = targets.map (fun target =>
          (target.1, target.2.map (Chain.move more.length))) := by
        induction places with
        | nil => rfl
        | @cons target other _ _ both _ induction =>
            have head : other = (target.1, target.2.map (Chain.move more.length)) :=
              Prod.ext both.1 (optional_eq_map both.2)
            rw [List.map_cons, ← induction, head]
      rw [all, same, StatementForm.move]
  | change target deltas starts finishes => rw [deltas, starts, finishes, StatementForm.move]
  | inspect label same => exact congrArg (StatementForm.inspect label) same

theorem form_same {more tokens : List Lexeme} {depth other : Nat} (deeper : depth ≤ other)
    (short : tokens.length < depth) (guarded : Guarded more tokens) :
    (anyForm (level other) (tokens ++ more)).outcome =
      (anyForm (level depth) tokens).outcome.map
        (fun (form, rest) => (form.move more.length, rest ++ more)) := by
  rcases forms_match (moving more) deeper tokens short guarded with
    ⟨missed, lost⟩ | ⟨form, moved, rest, found, reads, same, _⟩
  · rw [missed]
    exact lost
  · obtain rfl := moving_form same
    rw [found]
    exact reads

/-! ## One statement -/

theorem is_spaced_move (count : Nat) (form : StatementForm) :
    isSpaced (form.move count) = isSpaced form := by
  cases form with
  | change target delta start finish =>
      simp [StatementForm.move, isSpaced, Chain.extent_move, Extent.move]
  | _ => rfl

theorem statement_outcome (parsers : Level) (tokens : List Lexeme) :
    (statement parsers tokens).outcome =
      (anyForm parsers tokens).outcome.bind (fun (form, rest) =>
        (symbol ';' rest).outcome.map (fun (_, last) =>
          (⟨⟨tokens.length, rest.length, isSpaced form⟩, form⟩, last))) := by
  change ((anyForm parsers >>= _) tokens).outcome = _
  rw [bind_outcome]
  congr 1
  funext ⟨form, rest⟩
  change ((symbol ';' >>= _) rest).outcome = Option.map _ (symbol ';' rest).outcome
  rw [bind_outcome]
  cases (symbol ';' rest).outcome <;> rfl

/-- A statement is one of the forms, then a semicolon; it ends at the semicolon. -/
theorem statement_reads {parsers : Level} {tokens rest : List Lexeme} {written : WrittenStatement}
    (found : (statement parsers).Reads tokens written rest) :
    ∃ gap, (anyForm parsers).Reads tokens written.form (⟨gap, .symbol ';'⟩ :: rest) ∧
      written.extent = ⟨tokens.length, rest.length + 1, isSpaced written.form⟩ := by
  unfold Reads at found
  rw [statement_outcome, Option.bind_eq_some_iff] at found
  obtain ⟨⟨form, middle⟩, front, found⟩ := found
  obtain ⟨⟨_, last⟩, closed, same⟩ := Option.map_eq_some_iff.mp found
  obtain ⟨gap, rfl⟩ := symbol_reads_iff.mp closed
  cases same
  exact ⟨gap, front, rfl⟩

theorem form_takes {depth : Nat} {tokens rest : List Lexeme} {form : StatementForm}
    (short : tokens.length < depth) (found : (anyForm (level depth)).Reads tokens form rest) :
    Takes 1 tokens rest :=
  (forms_match (moving []) (Nat.le_refl depth) tokens short (Or.inl rfl)).takes found

theorem statement_takes {tokens rest : List Lexeme} {written : WrittenStatement} {depth : Nat}
    (short : tokens.length < depth) (found : (statement (level depth)).Reads tokens written rest) :
    ∃ gap, (anyForm (level depth)).Reads tokens written.form (⟨gap, .symbol ';'⟩ :: rest) ∧
      written.extent = ⟨tokens.length, rest.length + 1, isSpaced written.form⟩ ∧
      Takes 1 tokens (⟨gap, .symbol ';'⟩ :: rest) := by
  obtain ⟨gap, front, place⟩ := statement_reads found
  exact ⟨gap, front, place, form_takes short front⟩

theorem statement_shrinks (depth : Nat) : Shrinks depth (statement (level depth)) := by
  intro tokens written rest short found
  obtain ⟨gap, _, _, taken⟩ := statement_takes short found
  have fewer := taken.length
  rw [List.length_cons] at fewer
  omega

theorem statement_same {more tokens : List Lexeme} {depth other : Nat} (deeper : depth ≤ other)
    (short : tokens.length < depth) (guarded : Guarded more tokens) :
    (statement (level other) (tokens ++ more)).outcome =
      (statement (level depth) tokens).outcome.map
        (fun (written, rest) => (written.move more.length, rest ++ more)) := by
  rw [statement_outcome, statement_outcome, form_same deeper short guarded]
  cases found : (anyForm (level depth) tokens).outcome with
  | none => rfl
  | some result =>
      obtain ⟨form, rest⟩ := result
      have guard := (appending more).rest guarded (form_takes short found)
      cases rest with
      | nil =>
          obtain rfl := guarded_nothing guard
          rfl
      | cons lexeme rest =>
          by_cases closed : lexeme.token = .symbol ';'
          · simp [symbol, token, closed, WrittenStatement.move, Extent.move, is_spaced_move,
              Nat.add_right_comm]
          · simp [symbol, token, closed]

/-- Where a statement was found, a semicolon stands in front of whatever follows. -/
theorem statement_guarded {tokens rest : List Lexeme} {written : WrittenStatement}
    (more : List Lexeme) {depth : Nat} (short : tokens.length < depth)
    (found : (statement (level depth)).Reads tokens written rest) : Guarded more tokens := by
  obtain ⟨gap, _, _, taken, rfl, _⟩ := statement_takes short found
  exact Or.inr (Or.inl ⟨⟨gap, .symbol ';'⟩, by simp, rfl⟩)

/-! ## Whole scripts -/

theorem script_outcome (parsers : Level) (tokens : List Lexeme) :
    (script parsers tokens).outcome =
      (many (statement parsers) tokens).outcome.bind (fun (written, rest) =>
        if rest.isEmpty then some (written, []) else none) := by
  have inner : (script parsers tokens).outcome =
      ((many (statement parsers) >>= fun written => endOfInput >>= fun _ => pure written)
        tokens).outcome := by
    unfold script namedFromGap
    split
    · exact named_outcome _ _ _
    · rfl
  rw [inner, bind_outcome]
  congr 1
  funext ⟨written, rest⟩
  have ending : (endOfInput rest).outcome = if rest.isEmpty then some ((), []) else none :=
    named_outcome _ _ _
  dsimp only
  rw [bind_outcome, ending]
  cases rest <;> rfl

theorem many_statements_append {more tokens : List Lexeme} {depth other : Nat}
    {written : List WrittenStatement} (deeper : depth ≤ other) (short : tokens.length < depth)
    (room : (tokens ++ more).length < other)
    (repeated : Repeats (statement (level depth)) tokens written []) :
    (many (statement (level other)) (tokens ++ more)).outcome =
      (many (statement (level other)) more).outcome.map
        (fun (others, rest) => (written.map (WrittenStatement.move more.length) ++ others, rest)) := by
  generalize last : ([] : List Lexeme) = rest at repeated
  induction repeated with
  | stop missed =>
      -- Nothing is left of the first script, so the attempt that missed is not repeated.
      subst last
      simp
  | @more tokens middle rest form forms found shorter others induction =>
      have same := statement_same deeper short (statement_guarded more short found)
      unfold Reads at found
      rw [found, Option.map_some] at same
      have fewer : (middle ++ more).length < other := by
        rw [List.length_append] at room ⊢
        omega
      rw [many_outcome (statement_shrinks other) room same, induction (by omega) fewer last,
        Option.map_map]
      rfl

/-- Parsers for more levels of nesting find the same statement. -/
theorem statement_deeper {tokens : List Lexeme} {depth other : Nat} (deeper : depth ≤ other)
    (short : tokens.length < depth) :
    (statement (level other) tokens).outcome = (statement (level depth) tokens).outcome := by
  have same := statement_same deeper short (Or.inl rfl)
  rw [List.append_nil] at same
  rw [same]
  cases (statement (level depth) tokens).outcome with
  | none => rfl
  | some result => simp [WrittenStatement.move_zero]

theorem many_statements_deeper {tokens : List Lexeme} {depth other : Nat} (deeper : depth ≤ other)
    (short : tokens.length < depth) :
    (many (statement (level other)) tokens).outcome =
      (many (statement (level depth)) tokens).outcome := by
  unfold many
  generalize tokens.length + 1 = count
  induction count generalizing tokens with
  | zero => simp only [upTo]
  | succ count induction =>
      rw [up_to_outcome, up_to_outcome, statement_deeper deeper short]
      cases found : (statement (level depth) tokens).outcome with
      | none => simp only [Option.elim_none]
      | some result =>
          have fewer := statement_shrinks depth tokens result.1 result.2 short found
          exact congrArg (Option.map _) (induction (Nat.lt_trans fewer short))

theorem read_some_iff {tokens rest : List Lexeme} {written : List WrittenStatement} :
    (read tokens).outcome = some (written, rest) ↔
      rest = [] ∧ Repeats (statement (level (tokens.length + 1))) tokens written [] := by
  unfold read
  rw [script_outcome, Option.bind_eq_some_iff]
  constructor
  · rintro ⟨⟨found, last⟩, many, ended⟩
    dsimp only at ended
    split at ended
    · rename_i empty
      cases ended
      rw [List.isEmpty_iff.mp empty] at many
      exact ⟨rfl, repeats_of_many (statement_shrinks _) (Nat.lt_succ_self _) (Nat.lt_succ_self _) many⟩
    · cases ended
  · rintro ⟨rfl, repeated⟩
    exact ⟨(written, []), many_reads repeated, rfl⟩

/-- Behind a script, tokens are read as they are read alone. -/
theorem read_append {tokens : List Lexeme} {written : List WrittenStatement} (more : List Lexeme)
    (found : (read tokens).outcome = some (written, [])) :
    (read (tokens ++ more)).outcome = (read more).outcome.map (fun (others, rest) =>
      (written.map (WrittenStatement.move more.length) ++ others, rest)) := by
  obtain ⟨_, repeated⟩ := read_some_iff.mp found
  have deeper : more.length + 1 ≤ (tokens ++ more).length + 1 := by simp
  have room : (tokens ++ more).length < (tokens ++ more).length + 1 := Nat.lt_succ_self _
  have all := many_statements_append (by simp) (Nat.lt_succ_self _) room repeated
  unfold read
  rw [script_outcome, script_outcome, all, many_statements_deeper deeper (Nat.lt_succ_self _)]
  cases (many (statement (level (more.length + 1))) more).outcome with
  | none => rfl
  | some result =>
      obtain ⟨others, rest⟩ := result
      cases rest <;> rfl

theorem read_each {tokens rest : List Lexeme} {written : List WrittenStatement}
    (found : (read tokens).outcome = some (written, rest)) :
    ∀ statement ∈ written, ∃ middle last, middle <:+ tokens ∧
      (Grammar.statement (level (tokens.length + 1))).Reads middle statement last := by
  obtain ⟨_, repeated⟩ := read_some_iff.mp found
  have short : tokens.length < tokens.length + 1 := Nat.lt_succ_self _
  generalize tokens.length + 1 = depth at repeated short ⊢
  clear found
  generalize ([] : List Lexeme) = last at repeated
  induction repeated with
  | stop missed => simp
  | @more tokens middle rest form forms reads shorter others induction =>
      obtain ⟨gap, _, _, taken, together, _⟩ := statement_takes short reads
      intro statement member
      rcases List.mem_cons.mp member with rfl | member
      · exact ⟨tokens, middle, List.suffix_rfl, reads⟩
      · obtain ⟨start, last, inside, own⟩ := induction (Nat.lt_trans shorter short) statement member
        have behind : ⟨gap, .symbol ';'⟩ :: middle <:+ tokens := ⟨taken, together.symm⟩
        exact ⟨start, last, inside.trans ((List.suffix_cons _ _).trans behind), own⟩

theorem read_places {tokens rest : List Lexeme} {written : List WrittenStatement}
    (found : (read tokens).outcome = some (written, rest)) :
    ∀ statement ∈ written, statement.extent.Enclosed tokens.length := by
  intro statement member
  obtain ⟨middle, last, inside, reads⟩ := read_each found statement member
  obtain ⟨gap, _, place, taken⟩ := statement_takes (Nat.lt_succ_of_le inside.length_le) reads
  have fewer := taken.length
  rw [List.length_cons] at fewer
  rw [place]
  exact ⟨Nat.succ_pos _, by dsimp only; omega, inside.length_le⟩

/-! ## The gap in front of a script -/

theorem statement_ignores_gap (parsers : Level) : IgnoresGap (statement parsers) := by
  have names : IgnoresGap identifier :=
    named_ignores_gap _ (bind_ignores_gap _ (token_ignores_gap (fun _ _ _ => rfl)))
  apply ahead_bind_ignores_gap
  intro count
  apply bind_ignores_gap
  apply first_of_ignores_gap
  intro form member
  simp only [List.mem_cons, List.not_mem_nil, or_false] at member
  rcases member with rfl | rfl | rfl | rfl | rfl | rfl
  · exact named_ignores_gap _ (bind_ignores_gap _ (keyword_ignores_gap _))
  · exact named_ignores_gap _ (bind_ignores_gap _ (keyword_ignores_gap _))
  · exact named_ignores_gap _ (bind_ignores_gap _ (keyword_ignores_gap _))
  · exact named_ignores_gap _ (bind_ignores_gap _ (keyword_ignores_gap _))
  · exact named_ignores_gap _ (bind_ignores_gap _ (keyword_ignores_gap _))
  · exact named_ignores_gap _ (bind_ignores_gap _ names)

/-- A script may begin right behind another token or after blanks and comments. -/
theorem read_first_gap (gap other : Gap) (first : Token) (rest : List Lexeme) :
    (read (⟨gap, first⟩ :: rest)).outcome = (read (⟨other, first⟩ :: rest)).outcome := by
  unfold read
  simp only [List.length_cons]
  rw [script_outcome, script_outcome, many, many, up_to_outcome, up_to_outcome,
    statement_ignores_gap _ gap other first rest]
  cases (statement (level (rest.length + 1 + 1)) (⟨other, first⟩ :: rest)).outcome <;> rfl

end PolicyLevers.Script.Grammar
