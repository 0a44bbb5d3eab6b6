import PolicyLevers.Proofs.RenderedNumbers
import PolicyLevers.Proofs.PrintedExpressions
import PolicyLevers.Script.Parse

/-!
# Printed scripts are read back

The text of a script is accepted by every limit on nesting from some depth on, and what is read are the
statements that were printed.  Only the labels of inspections are new: they are the printed expressions
without blanks.
-/

namespace PolicyLevers.Script

set_option autoImplicit false

open PolicyLevers.Script.Parser

/-! ## The length of a printed expression -/

theorem Expr.enclosed_length (expr : Expr) (words : List String) :
    words.length ≤ (expr.enclosed words).length := by
  unfold Expr.enclosed
  split
  · simp only [List.length_append]
    omega
  · exact Nat.le_refl _

theorem Expr.levels_le_words (literal : Float → String) (expr : Expr) :
    expr.levels ≤ (expr.words literal).length := by
  induction expr with
  | number value => simp [levels, words]
  | path text => simp [levels, words]
  | lifecycle paths => simp [levels, words]
  | binary op left right leftBound rightBound =>
      have lefts := left.enclosed_length (left.words literal)
      have rights := right.enclosed_length (right.words literal)
      have leftPositive := left.levels_positive
      have rightPositive := right.levels_positive
      simp only [levels, words, List.length_append, List.length_singleton]
      omega
  | conditional test left right consequent alternative leftBound rightBound consequentBound
      alternativeBound =>
      have lefts := left.enclosed_length (left.words literal)
      have rights := right.enclosed_length (right.words literal)
      have consequents := consequent.enclosed_length (consequent.words literal)
      have alternatives := alternative.enclosed_length (alternative.words literal)
      simp only [levels, words, List.length_append, List.length_singleton]
      omega
  | uniform low high lowBound highBound =>
      have lows := low.enclosed_length (low.words literal)
      have highs := high.enclosed_length (high.words literal)
      simp only [levels, words, List.length_append, List.length_cons, List.length_nil]
      omega
  | normal mean deviation meanBound deviationBound =>
      have means := mean.enclosed_length (mean.words literal)
      have deviations := deviation.enclosed_length (deviation.words literal)
      simp only [levels, words, List.length_append, List.length_cons, List.length_nil]
      omega
  | repeated reducer count body countBound bodyBound =>
      have counts := count.enclosed_length (count.words literal)
      have bodies := body.enclosed_length (body.words literal)
      simp only [levels, words, List.length_append, List.length_cons, List.length_nil]
      omega

theorem Expr.levels_le_part_words (literal : Float → String) (expr : Expr) :
    expr.levels ≤ (expr.partWords literal).length :=
  Nat.le_trans (expr.levels_le_words literal) (expr.enclosed_length _)

theorem bound_levels_le_words (literal : Float → String) (bound : Option Expr) :
    ∀ expr ∈ bound, expr.levels ≤ (bound.toList.flatMap (Expr.words literal)).length := by
  intro expr same
  have found : bound = some expr := same
  subst found
  simpa using expr.levels_le_words literal

theorem item_length {item : List String} {items : List (List String)} (member : item ∈ items) :
    item.length ≤ (listed items).length := by
  cases items with
  | nil => cases member
  | cons first others =>
      rw [listed_cons, List.length_append]
      rcases List.mem_cons.mp member with rfl | later
      · omega
      · have inside : "," :: item ∈ others.map (List.cons ",") := List.mem_map_of_mem later
        have bound := (List.sublist_flatten_of_mem inside).length_le
        rw [← List.flatMap_def, List.length_cons] at bound
        omega

theorem target_levels_le_words (literal : Float → String) {target : Target} {targets : List Target}
    (member : target ∈ targets) : ∀ weight ∈ target.weight,
      weight.levels ≤ (listed (targets.map (Target.words literal))).length := by
  intro weight same
  have found : target.weight = some weight := same
  have bound := weight.levels_le_part_words literal
  have inside := item_length (List.mem_map_of_mem (f := Target.words literal) member)
  simp only [Target.words, found, List.length_append] at inside
  omega

/-! ## Parts of statements -/

section Parts

variable {literal : Float → String} {nesting : Nat} {following : List String}

theorem item_ends_phrase (ends : EndsItem following) : EndsPhrase following := by
  constructor
  · intro op
    rcases ends with comma | bracket
    · rw [comma]
      cases op <;> decide
    · rw [bracket]
      cases op <;> decide
  · rcases ends with comma | bracket
    · simp [comma]
    · simp [bracket]

theorem phrase_misses_item (ends : EndsItem following) :
    (Grammar.level nesting).phrase.Misses (lexemesOf .blank following) := by
  cases nesting with
  | zero => exact fail_misses _
  | succ inner =>
      apply named_misses
      apply bind_misses
      apply named_misses
      apply bind_misses
      rcases ends with comma | bracket
      · exact operand_misses_mark comma (by decide) (by decide)
      · exact operand_misses_mark bracket (by decide) (by decide)

theorem bound_reads {bound : Option Expr} (part : Expectation)
    (printable : ∀ expr ∈ bound, expr.Printable literal)
    (enough : ∀ expr ∈ bound, expr.levels ≤ nesting) (ends : EndsItem following) :
    ∃ phrase, (optional (named part (Grammar.level nesting).phrase)).Reads
      (lexemesOf .blank (bound.toList.flatMap (Expr.words literal) ++ following)) phrase
      (lexemesOf .blank following) ∧
        phrase.map Phrase.toExpr = bound ∧ ∀ found ∈ phrase, found.Unbroken := by
  cases bound with
  | none =>
      have missed : (named part (Grammar.level nesting).phrase).Misses (lexemesOf .blank following) :=
        named_misses (phrase_misses_item ends)
      exact ⟨none, optional_reads_none missed, rfl, by simp⟩
  | some expr =>
      have alone := (expr.reads_back (printable expr rfl) (enough expr rfl)).2
      obtain ⟨phrase, found, means, unbroken⟩ := alone following (item_ends_phrase ends)
      refine ⟨some phrase, ?_, congrArg some means, by simpa using unbroken⟩
      simp only [Option.toList_some, List.flatMap_cons, List.flatMap_nil, List.append_nil]
      exact optional_reads (named_reads found)

def readTarget (target : String × Option Chain) : Target :=
  ⟨target.1, target.2.map Chain.toExpr⟩

theorem target_reads {target : Target} (printable : target.Printable literal)
    (enough : ∀ weight ∈ target.weight, weight.levels ≤ nesting) :
    ReadsItem (Grammar.target (Grammar.level nesting)) (Target.words literal) readTarget
      (fun found => ∀ weight ∈ found.2, weight.Unbroken) target := by
  intro following ends
  obtain ⟨place, weight⟩ := target
  obtain ⟨name, weights⟩ := printable
  cases weight with
  | none =>
      have noWeight : (named .weight (keyword "by" >>= fun _ =>
          Grammar.chain (Grammar.level nesting).operand)).Misses (lexemesOf .blank following) := by
        apply named_misses
        apply bind_misses
        apply keyword_misses
        rcases ends with comma | bracket
        · simp [comma]
        · simp [bracket]
      exact ⟨(place, none), named_reads (bind_reads (identifier_reads name .blank following)
        (bind_reads (optional_reads_none noWeight) (pure_reads _ _))), rfl, by simp⟩
  | some weight =>
      have part := (weight.reads_back (weights weight rfl) (enough weight rfl)).1
      obtain ⟨chain, found, same, unbroken⟩ := Expr.part_chain part (item_ends_phrase ends).1
      have weighed : (named .weight (keyword "by" >>= fun _ =>
          Grammar.chain (Grammar.level nesting).operand)).Reads
          (lexemesOf .blank ("by" :: (weight.partWords literal ++ following))) chain
          (lexemesOf .blank following) := named_reads (bind_reads (word_reads rfl .blank _) found)
      refine ⟨(place, some chain), ?_, ?_, by simpa using unbroken⟩
      · exact named_reads (bind_reads (identifier_reads name .blank _)
          (bind_reads (optional_reads weighed) (pure_reads _ _)))
      · rw [← same]
        rfl

end Parts

/-! ## Statements -/

section Statements

variable {literal : Float → String} {nesting : Nat}

def FormReads (literal : Float → String) (nesting : Nat) (statement : StatementKind)
    (words : List String) : Prop :=
  ∀ gap following, ∃ form,
    (firstOf [Grammar.definition (Grammar.level nesting), Grammar.limit (Grammar.level nesting),
      Grammar.distribute (Grammar.level nesting), Grammar.change (Grammar.level nesting),
      Grammar.inspect (Grammar.level nesting), Grammar.assignment (Grammar.level nesting)]).Reads
        (lexemesOf gap (words ++ ";" :: following)) form (lexemesOf .blank (";" :: following)) ∧
      form.toKind = statement.labelled literal ∧ form.Unbroken

theorem opened_misses {part : Expectation} {spelling : String} {next : Unit → Parser StatementForm}
    {tokens : List Lexeme} (other : firstToken tokens ≠ some (.word spelling.toList)) :
    (named part (keyword spelling >>= next)).Misses tokens :=
  named_misses (bind_misses _ (keyword_misses other))

theorem other_keyword {word spelling : String} (segment : isSegment word.toList = true)
    (differs : word.toList ≠ spelling.toList) (gap : Gap) (words : List String) :
    firstToken (lexemesOf gap (word :: words)) ≠ some (.word spelling.toList) := by
  rw [keyword_first segment]
  simpa using differs

theorem form_reads_assignment {parsers : Grammar.Level} {tokens rest : List Lexeme} {text : List Char}
    {form : StatementForm} (first : firstToken tokens = some (.word text))
    (noKeyword : Grammar.keywords.contains (String.ofList text) = false)
    (found : (Grammar.assignment parsers).Reads tokens form rest) :
    (firstOf [Grammar.definition parsers, Grammar.limit parsers, Grammar.distribute parsers,
      Grammar.change parsers, Grammar.inspect parsers, Grammar.assignment parsers]).Reads
        tokens form rest := by
  have differs := keyword_differs first noKeyword
  exact or_else_reads_second (opened_misses (differs _ (by decide)))
    (or_else_reads_second (opened_misses (differs _ (by decide)))
      (or_else_reads_second (opened_misses (differs _ (by decide)))
        (or_else_reads_second (opened_misses (differs _ (by decide)))
          (or_else_reads_second (opened_misses (differs _ (by decide)))
            (or_else_reads_first _ found)))))

theorem semicolon_ends_phrase (following : List String) : EndsPhrase (";" :: following) :=
  mark_ends_phrase rfl rfl (by intro op; cases op <;> decide) following

theorem definition_reads {name : String} {value : Expr}
    (printable : (StatementKind.definition name value).Printable literal)
    (enough : value.levels ≤ nesting) :
    FormReads literal nesting (.definition name value)
      (["var", name, "="] ++ value.words literal) := by
  intro gap following
  have alone := (value.reads_back printable.2 enough).2
  obtain ⟨phrase, found, same, unbroken⟩ := alone _ (semicolon_ends_phrase following)
  simp only [List.cons_append, List.nil_append]
  refine ⟨.definition name phrase, or_else_reads_first _ (named_reads (bind_reads
    (word_reads rfl gap _) (bind_reads (identifier_reads printable.1 .blank _)
      (bind_reads (mark_reads rfl rfl .blank _) (bind_reads found (pure_reads _ _)))))), ?_, unbroken⟩
  rw [StatementForm.toKind, same]
  rfl

theorem limit_reads {target : String} {lower upper : Option Expr}
    (printable : (StatementKind.limit target lower upper).Printable literal)
    (lowerEnough : ∀ expr ∈ lower, expr.levels ≤ nesting)
    (upperEnough : ∀ expr ∈ upper, expr.levels ≤ nesting) :
    FormReads literal nesting (.limit target lower upper)
      (["limit", target, "to", "["] ++ lower.toList.flatMap (Expr.words literal) ++ [","] ++
        upper.toList.flatMap (Expr.words literal) ++ ["]"]) := by
  intro gap following
  obtain ⟨name, lowerPrintable, upperPrintable⟩ := printable
  have bracket : EndsItem ("]" :: ";" :: following) := Or.inr (mark_first rfl rfl _ _)
  have comma : EndsItem ("," :: (upper.toList.flatMap (Expr.words literal) ++ "]" :: ";" :: following)) :=
    Or.inl (mark_first rfl rfl _ _)
  obtain ⟨lowerPhrase, lowerFound, lowerSame, lowerUnbroken⟩ :=
    bound_reads .lowerBound lowerPrintable lowerEnough comma
  obtain ⟨upperPhrase, upperFound, upperSame, upperUnbroken⟩ :=
    bound_reads .upperBound upperPrintable upperEnough bracket
  have noDefinition : (Grammar.definition (Grammar.level nesting)).Misses
      (lexemesOf gap ("limit" :: target :: "to" :: "[" ::
        (lower.toList.flatMap (Expr.words literal) ++ "," ::
          (upper.toList.flatMap (Expr.words literal) ++ "]" :: ";" :: following)))) :=
    opened_misses (other_keyword rfl (by decide) _ _)
  simp only [List.append_assoc, List.cons_append, List.nil_append]
  refine ⟨.limit target lowerPhrase upperPhrase, or_else_reads_second noDefinition
    (or_else_reads_first _ (named_reads (bind_reads (word_reads rfl gap _)
      (bind_reads (identifier_reads name .blank _) (bind_reads (word_reads rfl .blank _)
        (bind_reads (mark_reads rfl rfl .blank _) (bind_reads lowerFound
          (bind_reads (mark_reads rfl rfl .blank _) (bind_reads upperFound
            (bind_reads (mark_reads rfl rfl .blank _) (pure_reads _ _))))))))))), ?_, lowerUnbroken,
    upperUnbroken⟩
  rw [StatementForm.toKind, lowerSame, upperSame]
  rfl

theorem split_reads (split : Split) (gap : Gap) (words : List String) :
    Grammar.split.Reads (lexemesOf gap (split.word :: words)) split (lexemesOf .blank words) := by
  have spelled : Spells split.word.toList [.word split.word.toList] :=
    (segment_word (by cases split <;> rfl)).1
  rw [lexemes_of_spells spelled]
  cases split <;> rfl

theorem distribute_reads {value : Expr} {targets : List Target} {split : Split}
    (printable : (StatementKind.distribute value targets split).Printable literal)
    (enough : value.levels ≤ nesting)
    (targetsEnough : ∀ target ∈ targets, ∀ weight ∈ target.weight, weight.levels ≤ nesting) :
    FormReads literal nesting (.distribute value targets split)
      (["distribute"] ++ value.words literal ++ ["across", "["] ++
        listed (targets.map (Target.words literal)) ++ ["]", split.word]) := by
  intro gap following
  obtain ⟨valuePrintable, some, targetsPrintable⟩ := printable
  have alone := (value.reads_back valuePrintable enough).2
  obtain ⟨phrase, found, same, unbroken⟩ := alone
    ("across" :: "[" :: (listed (targets.map (Target.words literal)) ++
      "]" :: split.word :: ";" :: following)) (keyword_ends_phrase rfl (by decide) _)
  obtain ⟨places, placesFound, placesSame, placesUnbroken⟩ :=
    list_reads some (split.word :: ";" :: following) (fun target member =>
      target_reads (targetsPrintable target member) (targetsEnough target member))
  have read : (Grammar.distribute (Grammar.level nesting)).Reads
      (lexemesOf gap ("distribute" :: (value.words literal ++ "across" :: "[" ::
        (listed (targets.map (Target.words literal)) ++ "]" :: split.word :: ";" :: following))))
      (.distribute phrase places split) (lexemesOf .blank (";" :: following)) :=
    named_reads (bind_reads (word_reads rfl gap _) (bind_reads found
      (bind_reads (word_reads rfl .blank _) (bind_reads (mark_reads rfl rfl .blank _)
        (bind_reads placesFound (bind_reads (mark_reads rfl rfl .blank _)
          (bind_reads (split_reads split .blank _) (pure_reads _ _))))))))
  simp only [List.append_assoc, List.cons_append, List.nil_append]
  refine ⟨_, or_else_reads_second (opened_misses (other_keyword rfl (by decide) _ _))
    (or_else_reads_second (opened_misses (other_keyword rfl (by decide) _ _))
      (or_else_reads_first _ read)), ?_, unbroken, placesUnbroken⟩
  rw [StatementForm.toKind, same]
  exact congrArg (StatementKind.distribute value · split) placesSame

theorem change_reads {target : String} {delta start finish : Expr}
    (printable : (StatementKind.change target delta start finish).Printable literal)
    (deltaEnough : delta.levels ≤ nesting) (startEnough : start.levels ≤ nesting)
    (finishEnough : finish.levels ≤ nesting) :
    FormReads literal nesting (.change target delta start finish)
      (["change", target, "by"] ++ delta.partWords literal ++ ["over"] ++ start.partWords literal ++
        ["to"] ++ finish.partWords literal) := by
  intro gap following
  obtain ⟨name, deltaPrintable, startPrintable, finishPrintable⟩ := printable
  have deltaPart := (delta.reads_back deltaPrintable deltaEnough).1
  have startPart := (start.reads_back startPrintable startEnough).1
  have finishPart := (finish.reads_back finishPrintable finishEnough).1
  obtain ⟨deltaChain, deltaFound, deltaSame, deltaUnbroken⟩ := Expr.part_chain deltaPart
    (keyword_ends_chain rfl (start.partWords literal ++
      "to" :: (finish.partWords literal ++ ";" :: following)) : EndsChain ("over" :: _))
  obtain ⟨startChain, startFound, startSame, startUnbroken⟩ := Expr.part_chain startPart
    (keyword_ends_chain rfl (finish.partWords literal ++ ";" :: following) : EndsChain ("to" :: _))
  obtain ⟨finishChain, finishFound, finishSame, finishUnbroken⟩ :=
    Expr.part_chain finishPart (semicolon_ends_phrase following).1
  have read : (Grammar.change (Grammar.level nesting)).Reads
      (lexemesOf gap ("change" :: target :: "by" :: (delta.partWords literal ++ "over" ::
        (start.partWords literal ++ "to" :: (finish.partWords literal ++ ";" :: following)))))
      (.change target deltaChain startChain finishChain) (lexemesOf .blank (";" :: following)) :=
    named_reads (bind_reads (word_reads rfl gap _) (bind_reads (identifier_reads name .blank _)
      (bind_reads (word_reads rfl .blank _) (bind_reads deltaFound
        (bind_reads (word_reads rfl .blank _) (bind_reads startFound
          (bind_reads (word_reads rfl .blank _) (bind_reads finishFound (pure_reads _ _)))))))))
  simp only [List.append_assoc, List.cons_append, List.nil_append]
  refine ⟨_, or_else_reads_second (opened_misses (other_keyword rfl (by decide) _ _))
    (or_else_reads_second (opened_misses (other_keyword rfl (by decide) _ _))
      (or_else_reads_second (opened_misses (other_keyword rfl (by decide) _ _))
        (or_else_reads_first _ read))), ?_, deltaUnbroken, startUnbroken, finishUnbroken⟩
  simp only [StatementForm.toKind, Chain.toExpr, deltaSame, startSame, finishSame,
    StatementKind.labelled]

/-- The label of an inspection is what the printed expression shows but its blanks. -/
theorem inspect_reads {label : String} {value : Expr}
    (printable : (StatementKind.inspect label value).Printable literal)
    (enough : value.levels ≤ nesting) :
    FormReads literal nesting (.inspect label value) (["inspect"] ++ value.words literal) := by
  intro gap following
  have alone := (value.reads_back printable enough).2
  obtain ⟨phrase, found, same, unbroken⟩ := alone _ (semicolon_ends_phrase following)
  have text := lexemes_text (value.words_are_words printable)
  rw [lexemes_append] at found
  have read : (Grammar.inspect (Grammar.level nesting)).Reads
      (lexemesOf gap ("inspect" :: (value.words literal ++ ";" :: following)))
      (.inspect (value.label literal) phrase) (lexemesOf .blank (";" :: following)) := by
    refine named_reads (bind_reads (word_reads rfl gap _) ?_)
    rw [lexemes_append, Expr.label, ← text]
    exact bind_reads (with_text_reads found) (pure_reads _ _)
  simp only [List.cons_append, List.nil_append]
  refine ⟨_, or_else_reads_second (opened_misses (other_keyword rfl (by decide) _ _))
    (or_else_reads_second (opened_misses (other_keyword rfl (by decide) _ _))
      (or_else_reads_second (opened_misses (other_keyword rfl (by decide) _ _))
        (or_else_reads_second (opened_misses (other_keyword rfl (by decide) _ _))
          (or_else_reads_first _ read)))), ?_, unbroken⟩
  rw [StatementForm.toKind, same]
  rfl

theorem assignment_reads {target : String} {value : Expr}
    (printable : (StatementKind.assignment target value).Printable literal)
    (enough : value.levels ≤ nesting) :
    FormReads literal nesting (.assignment target value) ([target, "="] ++ value.words literal) := by
  intro gap following
  obtain ⟨name, valuePrintable⟩ := printable
  have alone := (value.reads_back valuePrintable enough).2
  obtain ⟨phrase, found, same, unbroken⟩ := alone _ (semicolon_ends_phrase following)
  obtain ⟨first, noKeyword, start⟩ := name_first name gap
    ("=" :: (value.words literal ++ ";" :: following))
  have read : (Grammar.assignment (Grammar.level nesting)).Reads
      (lexemesOf gap (target :: "=" :: (value.words literal ++ ";" :: following)))
      (.assignment target phrase) (lexemesOf .blank (";" :: following)) :=
    named_reads (bind_reads (identifier_reads name gap _) (bind_reads (mark_reads rfl rfl .blank _)
      (bind_reads found (pure_reads _ _))))
  simp only [List.cons_append, List.nil_append]
  refine ⟨_, form_reads_assignment start noKeyword read, ?_, unbroken⟩
  rw [StatementForm.toKind, same]
  rfl

theorem statement_reads {statement : StatementKind} (printable : statement.Printable literal)
    (enough : (statement.words literal).length ≤ nesting) (gap : Gap) (following : List String) :
    ∃ written, (Grammar.statement (Grammar.level nesting)).Reads
      (lexemesOf gap (statement.words literal ++ following)) written (lexemesOf .blank following) ∧
        written.form.toKind = statement.labelled literal ∧ written.form.Unbroken := by
  have form : ∃ words, statement.words literal = words ++ [";"] ∧
      FormReads literal nesting statement words := by
    cases statement with
    | definition name value =>
        have bound := value.levels_le_words literal
        simp only [StatementKind.words, List.length_append] at enough
        exact ⟨_, rfl, definition_reads printable (by omega)⟩
    | assignment target value =>
        have bound := value.levels_le_words literal
        simp only [StatementKind.words, List.length_append] at enough
        exact ⟨_, rfl, assignment_reads printable (by omega)⟩
    | limit target lower upper =>
        have lowerBound := bound_levels_le_words literal lower
        have upperBound := bound_levels_le_words literal upper
        simp only [StatementKind.words, List.length_append] at enough
        refine ⟨_, ?_, limit_reads printable ?_ ?_⟩
        · simp [StatementKind.words]
        · intro expr member
          have bound := lowerBound expr member
          omega
        · intro expr member
          have bound := upperBound expr member
          omega
    | distribute value targets split =>
        have valueBound := value.levels_le_words literal
        simp only [StatementKind.words, List.length_append] at enough
        refine ⟨_, ?_, distribute_reads printable (by omega) ?_⟩
        · simp [StatementKind.words]
        · intro target member weight own
          have bound := target_levels_le_words literal member weight own
          omega
    | change target delta start finish =>
        have deltaBound := delta.levels_le_part_words literal
        have startBound := start.levels_le_part_words literal
        have finishBound := finish.levels_le_part_words literal
        simp only [StatementKind.words, List.length_append] at enough
        exact ⟨_, rfl, change_reads printable (by omega) (by omega) (by omega)⟩
    | inspect label value =>
        have bound := value.levels_le_words literal
        simp only [StatementKind.words, List.length_append] at enough
        exact ⟨_, rfl, inspect_reads printable (by omega)⟩
  obtain ⟨words, whole, reads⟩ := form
  obtain ⟨form, found, same, unbroken⟩ := reads gap following
  have read : (Grammar.statement (Grammar.level nesting)).Reads
      (lexemesOf gap (words ++ ";" :: following)) ⟨_, form⟩ (lexemesOf .blank following) :=
    bind_reads (ahead_reads _) (bind_reads found (bind_reads (ahead_reads _)
      (bind_reads (mark_reads rfl rfl .blank _) (pure_reads _ _))))
  rw [whole, List.append_assoc, List.singleton_append]
  exact ⟨_, read, same, unbroken⟩

end Statements

/-! ## Scripts -/

theorem statement_misses_nothing (nesting : Nat) :
    (Grammar.statement (Grammar.level nesting)).Misses [] := by
  have nothing : ∀ token, firstToken [] ≠ some token := by simp [firstToken]
  refine bind_misses_later (ahead_reads _) (bind_misses _ ?_)
  exact or_else_misses (opened_misses (nothing _)) (or_else_misses (opened_misses (nothing _))
    (or_else_misses (opened_misses (nothing _)) (or_else_misses (opened_misses (nothing _))
      (or_else_misses (opened_misses (nothing _)) (or_else_misses (named_misses (bind_misses _
        (identifier_misses (fun text => nothing _)))) (fail_misses _))))))

theorem statements_repeat {literal : Float → String} {script : List StatementKind} {nesting : Nat}
    (printable : ∀ statement ∈ script, statement.Printable literal)
    (enough : (script.flatMap (StatementKind.words literal)).length ≤ nesting) (gap : Gap) :
    ∃ written : List WrittenStatement, Repeats (Grammar.statement (Grammar.level nesting))
      (lexemesOf gap (script.flatMap (StatementKind.words literal))) written [] ∧
        written.map (fun statement => statement.form.toKind) =
          script.map (StatementKind.labelled literal) ∧
        ∀ statement ∈ written, statement.form.Unbroken := by
  induction script generalizing gap with
  | nil => exact ⟨[], .stop (statement_misses_nothing nesting), rfl, by simp⟩
  | cons statement script induction =>
      obtain ⟨own, others⟩ := List.forall_mem_cons.mp printable
      rw [List.flatMap_cons, List.length_append] at enough
      obtain ⟨written, repeated, same, unbroken⟩ := induction others (by omega) .blank
      have ownEnough : (statement.words literal).length ≤ nesting := by omega
      obtain ⟨first, found, firstSame, firstUnbroken⟩ := statement_reads own ownEnough gap
        (script.flatMap (StatementKind.words literal))
      refine ⟨first :: written, ?_, by simp [firstSame, same], by simpa using ⟨firstUnbroken, unbroken⟩⟩
      rw [List.flatMap_cons]
      refine .more found ?_ repeated
      -- the repetition goes on only behind a statement that takes a token, and each has a word
      cases words : statement.words literal with
      | nil => cases statement <;> simp [StatementKind.words] at words
      | cons word more =>
          have valid := statement.words_are_words own
          rw [words] at valid
          exact lexemes_shorter (are_words_cons.mp valid).1 gap more _

theorem heights_bounded (written : List WrittenStatement) :
    ∃ depth, ∀ statement ∈ written, statement.form.height ≤ depth := by
  induction written with
  | nil => exact ⟨0, by simp⟩
  | cons statement written induction =>
      obtain ⟨depth, bounded⟩ := induction
      refine ⟨max statement.form.height depth, ?_⟩
      intro other member
      rcases List.mem_cons.mp member with rfl | later
      · omega
      · have bound := bounded other later
        omega

/-- Reading undoes printing: every finite number has a literal, and the printed text of a script is
accepted by every limit from some depth on; its statements are the printed ones, with the printed
expressions as labels. -/
theorem printed_scripts_are_read_back :
    (∀ value : Float, value.isFinite → ∃ text, IsLiteral text value) ∧
      ∀ (literal : Float → String) (script : List StatementKind),
        (∀ statement ∈ script, statement.Printable literal) →
        ∃ (depth : Nat) (statements : List Statement),
          statements.map Statement.kind = script.map (StatementKind.labelled literal) ∧
            ∀ limit, depth ≤ limit → parse limit (printed literal script) = .ok statements := by
  refine ⟨fun value finite => Decimal.finite_has_literal finite, ?_⟩
  intro literal script printable
  have words : AreWords (script.flatMap (StatementKind.words literal)) := by
    intro word member
    obtain ⟨statement, isStatement, inside⟩ := List.mem_flatMap.mp member
    exact statement.words_are_words (printable statement isStatement) word inside
  have tokens : (scan (printed literal script).toList).lexemes =
      lexemesOf .none (script.flatMap (StatementKind.words literal)) := spaced_lexemes words
  have enough := lexemes_length words .none
  obtain ⟨written, repeated, same, unbroken⟩ := statements_repeat printable
    (Nat.le_succ_of_le enough) .none
  obtain ⟨depth, bounded⟩ := heights_bounded written
  have read : (Grammar.script (Grammar.level _)).Reads
      (lexemesOf .none (script.flatMap (StatementKind.words literal))) written [] :=
    named_from_gap_reads (bind_reads (many_reads repeated)
      (bind_reads end_of_input_reads (pure_reads _ _)))
  let offsets := Offsets.ofScan (scan (printed literal script).toList)
  refine ⟨depth, written.map (fun statement =>
    ⟨offsets.span statement.extent, statement.form.toKind⟩), ?_, ?_⟩
  · rw [← same, List.map_map]
    rfl
  · intro limit deep
    have faultless : written.flatMap (fun statement => statement.form.faults limit) = [] := by
      rw [List.flatMap_eq_nil_iff]
      intro statement member
      have bound := bounded statement member
      exact (statement.form.faults_nil_iff limit).mpr ⟨unbroken statement member, by omega⟩
    unfold Reads at read
    simp only [parse, Grammar.read, tokens, read, faultless]
    rfl

def sampleScript : List StatementKind :=
  [.definition "rate" (.uniform (.number 2.5) (.number (-1000.0))),
    .assignment "in.total_2" (.conditional .lte (.path "rate") (.number 2.5)
      (.repeated .average (.number 2.5) (.binary .pow (.path "rate") (.number (-1000.0))))
      (.normal (.path "rate") (.number 2.5))),
    .limit "in.total_2" none (some (.binary .div (.path "rate") (.number 2.5))),
    .distribute (.number 2.5)
      [⟨"out.nafta.reuse", none⟩, ⟨"out.eu30.reuse", some (.binary .sub (.path "rate") (.number 2.5))⟩]
      .linear,
    .change "rate" (.number 2.5) (.path "meta.year") (.number (-1000.0)),
    .inspect "" (.lifecycle ["out.nafta.reuse", "out.eu30.reuse"])]

def sampleLiteral (value : Float) : String := if value == 2.5 then "2.5" else "-1e3"

theorem sample_literals :
    IsLiteral (sampleLiteral 2.5) 2.5 ∧ IsLiteral (sampleLiteral (-1000.0)) (-1000.0) := by
  unfold IsLiteral
  decide +kernel

theorem sample_script_is_read_back :
    (Float.isFinite 2.5 ∧ ∃ text, IsLiteral text 2.5) ∧
      (∀ statement ∈ sampleScript, statement.Printable sampleLiteral) ∧
      ∃ (depth : Nat) (statements : List Statement),
        statements.map Statement.kind = sampleScript.map (StatementKind.labelled sampleLiteral) ∧
          ∀ limit, depth ≤ limit → parse limit (printed sampleLiteral sampleScript) = .ok statements := by
  have finite : Float.isFinite 2.5 := by decide +kernel
  have printable : ∀ statement ∈ sampleScript, statement.Printable sampleLiteral := by
    obtain ⟨positive, negative⟩ := sample_literals
    simp [sampleScript, StatementKind.Printable, Expr.Printable, Target.Printable, positive, negative]
    decide
  exact ⟨⟨finite, printed_scripts_are_read_back.1 2.5 finite⟩, printable,
    printed_scripts_are_read_back.2 sampleLiteral sampleScript printable⟩

end PolicyLevers.Script
