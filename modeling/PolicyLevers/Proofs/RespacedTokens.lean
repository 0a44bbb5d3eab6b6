import PolicyLevers.Proofs.JoinedTokens
import PolicyLevers.Proofs.WrittenNumbers

/-!
# Other gaps between tokens

Two lists of the same tokens, in which the same tokens touch, are read as the same statements.  What the
gaps are shows in the numbers alone: each of them notes what stands between its sign and its digits.
-/

namespace PolicyLevers.Script

set_option autoImplicit false

open PolicyLevers.Script.Parser PolicyLevers.Script.Grammar

/-- The same token; it touches the one before it in both places or in none. -/
def Lexeme.Alike (lexeme other : Lexeme) : Prop :=
  other.token = lexeme.token ∧ (other.gap = .none ↔ lexeme.gap = .none)

def Operand.Stands (tokens : List Lexeme) (number : Operand) : Prop :=
  ∃ middle rest, middle <:+ tokens ∧ WrittenNumber middle number rest

structure Operand.Beside (tokens others : List Lexeme) (number other : Operand) : Prop where
  place : other.extent = number.extent
  first : number.Stands tokens
  second : other.Stands others

theorem partner_of_forall₂ {α β : Type} {R : α → β → Prop} {own : List α} {others : List β}
    (both : List.Forall₂ R own others) {other : β} (member : other ∈ others) :
    ∃ value ∈ own, R value other := by
  induction both with
  | nil => cases member
  | cons here _ induction =>
      rcases List.mem_cons.mp member with rfl | later
      · exact ⟨_, List.mem_cons_self, here⟩
      · obtain ⟨value, inside, related⟩ := induction later
        exact ⟨value, List.mem_cons_of_mem _ inside, related⟩

/-- Operands that differ in the gaps of their numbers at most. -/
structure Operand.Alike (tokens others : List Lexeme) (value moved : Operand) : Prop where
  extent : moved.extent = value.extent
  meaning : moved.toExpr = value.toExpr
  height : moved.height = value.height
  numbers : List.Forall₂ (Operand.Beside tokens others) value.numbers moved.numbers

structure Chain.Alike (tokens others : List Lexeme) (value moved : Chain) : Prop where
  final : moved.final.extent = value.final.extent
  spaced : moved.extent.spaced = value.extent.spaced
  meaning : moved.toJoined = value.toJoined
  height : moved.height = value.height
  numbers : List.Forall₂ (Operand.Beside tokens others) value.numbers moved.numbers

structure Phrase.Alike (tokens others : List Lexeme) (value moved : Phrase) : Prop where
  meaning : moved.toExpr = value.toExpr
  height : moved.height = value.height
  numbers : List.Forall₂ (Operand.Beside tokens others) value.numbers moved.numbers

structure StatementForm.Alike (tokens others : List Lexeme) (value moved : StatementForm) : Prop where
  meaning : moved.toKind = value.toKind
  height : moved.height = value.height
  numbers : List.Forall₂ (Operand.Beside tokens others) value.numbers moved.numbers

section Respaced

variable {tokens others : List Lexeme} (alike : List.Forall₂ Lexeme.Alike tokens others)

include alike

theorem rests_alike {rest : List Lexeme} (inside : rest <:+ tokens) :
    List.Forall₂ Lexeme.Alike rest (others.drop (tokens.length - rest.length)) := by
  have behind := List.forall₂_drop (tokens.length - rest.length) alike
  rwa [← List.suffix_iff_eq_drop.mp inside] at behind

theorem first_respaced {lexeme : Lexeme} {rest : List Lexeme} (inside : lexeme :: rest <:+ tokens) :
    ∃ gap, (gap = .none ↔ lexeme.gap = .none) ∧
      others.drop (tokens.length - (lexeme :: rest).length) =
        ⟨gap, lexeme.token⟩ :: others.drop (tokens.length - rest.length) := by
  have longer := inside.length_le
  have behind := rests_alike alike inside
  generalize same : others.drop (tokens.length - (lexeme :: rest).length) = respaced at behind
  cases behind with
  | @cons _ other _ later both _ =>
      have next : later = others.drop (tokens.length - rest.length) := by
        have tail := congrArg List.tail same
        rw [List.tail_drop, List.tail_cons] at tail
        rw [← tail]
        congr 1
        rw [List.length_cons] at longer ⊢
        omega
      rw [← both.1]
      exact ⟨other.gap, both.2, by rw [next]⟩

end Respaced

def respacing {tokens others : List Lexeme} (alike : List.Forall₂ Lexeme.Alike tokens others) :
    Retokening where
  apply rest := others.drop (tokens.length - rest.length)
  count := 0
  Valid rest := rest <:+ tokens
  valid_behind inside _ := (List.suffix_append _ _).trans inside
  valid_inside inside _ := (List.suffix_cons _ _).trans inside
  nothing _ := by rw [alike.length_eq, List.length_nil, Nat.sub_zero, List.drop_length]
  first := first_respaced alike
  length inside := (rests_alike alike inside).length_eq.symm

theorem number_respaced {tokens others : List Lexeme} (alike : List.Forall₂ Lexeme.Alike tokens others)
    {middle rest : List Lexeme} {value : Operand} (inside : middle <:+ tokens)
    (written : WrittenNumber middle value rest) :
    ∃ moved, WrittenNumber ((respacing alike).apply middle) moved ((respacing alike).apply rest) ∧
      Operand.Alike tokens others value moved := by
  have dropped (rest : List Lexeme) : (respacing alike).apply rest <:+ others := List.drop_suffix _ _
  have own : value.Stands tokens := ⟨middle, rest, inside, written⟩
  cases written with
  | unsigned gap text =>
      obtain ⟨other, _, applied⟩ := (respacing alike).first inside
      have length := (respacing alike).length ((List.suffix_cons _ _).trans inside)
      have moved := WrittenNumber.unsigned other text ((respacing alike).apply rest)
      rw [← applied, length] at moved
      exact ⟨_, moved, rfl, rfl, rfl, .cons ⟨rfl, own, _, _, dropped _, moved⟩ .nil⟩
  | signed first mark gap text =>
      obtain ⟨otherFirst, _, applied⟩ := (respacing alike).first inside
      have behind := (List.suffix_cons _ _).trans inside
      obtain ⟨other, _, later⟩ := (respacing alike).first behind
      have length := (respacing alike).length ((List.suffix_cons _ _).trans behind)
      have moved := WrittenNumber.signed otherFirst mark other text ((respacing alike).apply rest)
      rw [← later, ← applied, length] at moved
      exact ⟨_, moved, rfl, rfl, rfl, .cons ⟨rfl, own, _, _, dropped _, moved⟩ .nil⟩

def respacingPhrases {tokens others : List Lexeme} (alike : List.Forall₂ Lexeme.Alike tokens others) :
    Recast where
  toRetokening := respacing alike
  operand := Operand.Alike tokens others
  chain := Chain.Alike tokens others
  phrase := Phrase.Alike tokens others
  number := number_respaced alike
  path _ _ := ⟨rfl, rfl, rfl, .nil⟩
  lifecycle _ _ := ⟨rfl, rfl, rfl, .nil⟩
  uniform _ lows highs := by
    refine ⟨rfl, ?_, ?_, List.rel_append lows.numbers highs.numbers⟩
    · rw [Operand.toExpr, Operand.toExpr, lows.meaning, highs.meaning]
    · rw [Operand.height, Operand.height, lows.height, highs.height]
  normal _ means deviations := by
    refine ⟨rfl, ?_, ?_, List.rel_append means.numbers deviations.numbers⟩
    · rw [Operand.toExpr, Operand.toExpr, means.meaning, deviations.meaning]
    · rw [Operand.height, Operand.height, means.height, deviations.height]
  repeated _ _ counts bodies := by
    refine ⟨rfl, ?_, ?_, List.rel_append counts.numbers bodies.numbers⟩
    · rw [Operand.toExpr, Operand.toExpr, counts.meaning, bodies.meaning]
    · rw [Operand.height, Operand.height, counts.height, bodies.height]
  group _ bodies := ⟨rfl, bodies.meaning, congrArg (· + 1) bodies.height, bodies.numbers⟩
  last same := by
    refine ⟨same.extent, ?_, ?_, same.height, same.numbers⟩
    · rw [Chain.extent, Chain.extent]
    · rw [Chain.toJoined, Chain.toJoined, same.meaning]
  join _ same rests := by
    refine ⟨rests.final, ?_, ?_, ?_, List.rel_append same.numbers rests.numbers⟩
    · rw [Chain.extent, Chain.extent, rests.final]
    · rw [Chain.toJoined, Chain.toJoined, same.meaning, rests.meaning]
    · rw [Chain.height, Chain.height, same.height, rests.height]
  plain same := by
    refine ⟨?_, congrArg (· + 2) same.height, same.numbers⟩
    rw [Phrase.toExpr, Phrase.toExpr, same.meaning]
  conditional _ same lefts rights alternatives := by
    refine ⟨?_, ?_, List.rel_append same.numbers (List.rel_append lefts.numbers
      (List.rel_append rights.numbers alternatives.numbers))⟩
    · rw [Phrase.toExpr, Phrase.toExpr, same.meaning, lefts.meaning, rights.meaning,
        alternatives.meaning]
    · rw [Phrase.height, Phrase.height, same.height, lefts.height, rights.height, alternatives.height]
  spaced same := same.spaced

/-! ## Statements -/

section Statements

variable {tokens others : List Lexeme} {alike : List.Forall₂ Lexeme.Alike tokens others}

theorem bounds_respaced {bound moved : Option Phrase}
    (same : Option.Rel (Phrase.Alike tokens others) bound moved) :
    moved.map Phrase.toExpr = bound.map Phrase.toExpr ∧
      moved.map Phrase.height = bound.map Phrase.height ∧
      List.Forall₂ (Operand.Beside tokens others) (bound.toList.flatMap Phrase.numbers)
        (moved.toList.flatMap Phrase.numbers) := by
  cases same with
  | none => exact ⟨rfl, rfl, .nil⟩
  | some same =>
      refine ⟨congrArg some same.meaning, congrArg some same.height, ?_⟩
      simpa using same.numbers

theorem targets_respaced {targets moved : List (String × Option Chain)} (base : Nat)
    (same : List.Forall₂ (fun target other =>
      other.1 = target.1 ∧ Option.Rel (Chain.Alike tokens others) target.2 other.2) targets moved) :
    moved.map (fun (place, weight) => (⟨place, weight.map Chain.toExpr⟩ : Target)) =
        targets.map (fun (place, weight) => ⟨place, weight.map Chain.toExpr⟩) ∧
      moved.foldr (fun target rest =>
          max ((target.2.map (fun weight => weight.height + 1)).getD 0) rest) base =
        targets.foldr (fun target rest =>
          max ((target.2.map (fun weight => weight.height + 1)).getD 0) rest) base ∧
      List.Forall₂ (Operand.Beside tokens others)
        (targets.flatMap (fun target => target.2.toList.flatMap Chain.numbers))
        (moved.flatMap (fun target => target.2.toList.flatMap Chain.numbers)) := by
  induction same with
  | nil => exact ⟨rfl, rfl, .nil⟩
  | @cons target other _ _ both _ induction =>
      obtain ⟨place, weight⟩ := target
      obtain ⟨otherPlace, otherWeight⟩ := other
      obtain ⟨here, weights⟩ := both
      obtain ⟨meaning, height, numbers⟩ := induction
      dsimp only at here weights
      subst here
      cases weights with
      | none =>
          refine ⟨?_, ?_, by simpa using numbers⟩
          · rw [List.map_cons, List.map_cons, meaning]
          · rw [List.foldr_cons, List.foldr_cons, height]
      | some same =>
          refine ⟨?_, ?_, ?_⟩
          · simp only [List.map_cons, meaning, Option.map_some, Chain.toExpr, same.meaning]
          · simp only [List.foldr_cons, height, Option.map_some, same.height]
          · simpa using List.rel_append same.numbers numbers

theorem form_respaced {form moved : StatementForm} (same : (respacingPhrases alike).Form form moved) :
    form.Alike tokens others moved := by
  cases same with
  | definition name same =>
      exact ⟨congrArg (StatementKind.definition name) same.meaning, same.height, same.numbers⟩
  | assignment target same =>
      exact ⟨congrArg (StatementKind.assignment target) same.meaning, same.height, same.numbers⟩
  | limit target lowers uppers =>
      obtain ⟨lower, lowHeight, lowNumbers⟩ := bounds_respaced lowers
      obtain ⟨upper, highHeight, highNumbers⟩ := bounds_respaced uppers
      refine ⟨?_, ?_, List.rel_append lowNumbers highNumbers⟩
      · rw [StatementForm.toKind, StatementForm.toKind, lower, upper]
      · rw [StatementForm.height, StatementForm.height, lowHeight, highHeight]
  | distribute split same places =>
      obtain ⟨meaning, height, numbers⟩ := targets_respaced (Phrase.height _) places
      refine ⟨?_, ?_, List.rel_append same.numbers numbers⟩
      · rw [StatementForm.toKind, StatementForm.toKind, same.meaning, meaning]
      · rw [StatementForm.height, StatementForm.height, same.height, height]
  | change target deltas starts finishes =>
      refine ⟨?_, ?_, List.rel_append deltas.numbers
        (List.rel_append starts.numbers finishes.numbers)⟩
      · simp only [StatementForm.toKind, Chain.toExpr, deltas.meaning, starts.meaning,
          finishes.meaning]
      · simp only [StatementForm.height, deltas.height, starts.height, finishes.height]
  | inspect label same =>
      exact ⟨congrArg (StatementKind.inspect label) same.meaning, same.height, same.numbers⟩

theorem statement_respaced (alike : List.Forall₂ Lexeme.Alike tokens others)
    {middle rest : List Lexeme} {written : WrittenStatement} {depth : Nat}
    (inside : middle <:+ tokens) (short : middle.length < depth)
    (found : (statement (level depth)).Reads middle written rest) :
    rest <:+ tokens ∧ ∃ moved, written.form.Alike tokens others moved.form ∧
      (statement (level depth)).Reads ((respacing alike).apply middle) moved
        ((respacing alike).apply rest) := by
  obtain ⟨gap, front, _⟩ := statement_reads found
  rcases forms_match (respacingPhrases alike) (Nat.le_refl depth) middle short inside with
    ⟨missed, _⟩ | ⟨form, moved, last, reads, otherReads, same, taken⟩
  · rw [Reads, missed] at front
    cases front
  · rw [Reads, reads] at front
    cases front
    obtain ⟨taken, together, _⟩ := taken
    have closed : ⟨gap, .symbol ';'⟩ :: rest <:+ tokens :=
      List.IsSuffix.trans ⟨taken, together.symm⟩ inside
    obtain ⟨other, _, semicolon⟩ := (respacingPhrases alike).first closed
    have outcome := statement_outcome (level depth) ((respacingPhrases alike).apply middle)
    rw [otherReads, semicolon] at outcome
    simp only [Option.bind_some, symbol, token, if_true, Option.map_some] at outcome
    exact ⟨(List.suffix_cons _ _).trans closed, _, form_respaced same, outcome⟩

/-- With other gaps between the tokens the same statements are read. -/
theorem read_respaced (alike : List.Forall₂ Lexeme.Alike tokens others)
    {written : List WrittenStatement} (found : (read tokens).outcome = some (written, [])) :
    ∃ moved, (read others).outcome = some (moved, []) ∧
      List.Forall₂ (fun own other => own.form.Alike tokens others other.form) written moved := by
  have nothing : (respacing alike).apply [] = [] := (respacing alike).nothing List.nil_suffix
  have whole : (respacing alike).apply tokens = others := by
    change others.drop _ = others
    rw [Nat.sub_self, List.drop_zero]
  have all {middle : List Lexeme} (inside : middle <:+ tokens) {written : List WrittenStatement}
      (repeated : Repeats (statement (level (tokens.length + 1))) middle written []) :
      ∃ moved, Repeats (statement (level (tokens.length + 1))) ((respacing alike).apply middle) moved
          [] ∧
        List.Forall₂ (fun own other => own.form.Alike tokens others other.form) written moved := by
    generalize last : ([] : List Lexeme) = rest at repeated
    induction repeated with
    | stop missed =>
        subst last
        exact ⟨[], by rw [nothing]; exact .stop missed, .nil⟩
    | @more middle later rest form forms reads shorter _ induction =>
        have short : middle.length < tokens.length + 1 := Nat.lt_succ_of_le inside.length_le
        obtain ⟨behind, moved, same, otherReads⟩ := statement_respaced alike inside short reads
        obtain ⟨movedForms, repeated, all⟩ := induction behind last
        refine ⟨moved :: movedForms, .more otherReads ?_ repeated, .cons same all⟩
        have fewer := (respacing alike).length behind
        have more := (respacing alike).length inside
        omega
  obtain ⟨_, repeated⟩ := read_some_iff.mp found
  obtain ⟨moved, others, same⟩ := all List.suffix_rfl repeated
  refine ⟨moved, ?_, same⟩
  rw [read_some_iff, ← alike.length_eq]
  rw [whole] at others
  exact ⟨rfl, others⟩

end Statements

end PolicyLevers.Script
