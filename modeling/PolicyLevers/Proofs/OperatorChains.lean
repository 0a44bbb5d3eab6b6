import PolicyLevers.Proofs.ClosedOperands
import PolicyLevers.Proofs.JoinedScripts
import PolicyLevers.Proofs.OperatorGrouping
import PolicyLevers.Proofs.PrintedScripts
import PolicyLevers.Proofs.ScannedGaps

/-!
# Chains as they are written

Operands with operators between them, and blanks around each operator, are read as one expression.  It is
the grouped tree of the chain: the one tree that lists the operands and operators from left to right and
in which each operator binds as its precedence says.
-/

namespace PolicyLevers.Script

set_option autoImplicit false

open PolicyLevers.Script.Parser

/-! ## Written chains -/

/-- A text that is an operand up to its last character: a number, a path, a lifecycle list or an expression
in parentheses. -/
structure OperandText where
  text : List Char
  operand : Operand
  is : Grammar.IsOperand (scan text).lexemes operand
  ends : (scan text).trailing = []
  unbroken : operand.Unbroken

structure Blanks where
  text : List Char
  present : text ≠ []
  spaces : ∀ c ∈ text, isSpace c = true

structure Link where
  before : Blanks
  op : BinaryOp
  after : Blanks
  operand : OperandText

structure OperatorChain where
  first : OperandText
  links : List Link

def Link.text (link : Link) : List Char :=
  link.before.text ++ Grammar.operatorSign link.op :: (link.after.text ++ link.operand.text)

namespace OperatorChain

def listed (chain : OperatorChain) : Joined OperandText :=
  ⟨chain.first, chain.links.map (fun link => (link.op, link.operand))⟩

def text (chain : OperatorChain) : List Char :=
  chain.first.text ++ chain.links.flatMap Link.text

def assignedTo (chain : OperatorChain) (target : String) : String :=
  String.ofList (target.toList ++ " = ".toList ++ (chain.text ++ [';']))

end OperatorChain

/-! ## Their tokens -/

def Blanks.single : Blanks := ⟨[' '], by simp, by simp [isSpace]⟩

/-- The text ends a token in front of it and starts no comment. -/
def Stops (text : List Char) : Prop := ∃ c ∈ text.head?, endsToken c = true ∧ c ≠ '/'

theorem scan_before_stop {text rest : List Char} (ends : (scan text).trailing = []) (stops : Stops rest) :
    (scan (text ++ rest)).lexemes = (scan text).lexemes ++ (scan rest).lexemes := by
  obtain ⟨c, first, separates, noSlash⟩ := stops
  cases rest with
  | nil => cases first
  | cons d rest =>
      obtain rfl : d = c := Option.some.inj first
      rw [scan_stop separates (fun slash => absurd slash noSlash), ends, List.nil_append]
      simp only [Scan.lexemes, List.map_append]

namespace Blanks

theorem filling (blanks : Blanks) : Filling blanks.text := by
  have spaces := blanks.spaces
  generalize blanks.text = text at spaces
  induction text with
  | nil => exact .nothing
  | cons c rest induction =>
      obtain ⟨space, others⟩ := List.forall_mem_cons.mp spaces
      exact .blank space (induction others)

theorem stops (blanks : Blanks) (rest : List Char) : Stops (blanks.text ++ rest) := by
  obtain ⟨c, others, same⟩ := List.exists_cons_of_ne_nil blanks.present
  have space := blanks.spaces c (by simp [same])
  refine ⟨c, by simp [same], space_ends_token space, ?_⟩
  rintro rfl
  cases space

theorem no_slash (blanks : Blanks) (rest : List Char) : (blanks.text ++ rest).head? ≠ some '/' := by
  obtain ⟨c, first, _, noSlash⟩ := blanks.stops rest
  rw [first]
  simpa using noSlash

end Blanks

/-- Stands alone as a token, a slash only if no other one follows. -/
def standsAlone (c : Char) : Bool :=
  !isSpace c && c ≠ '#' && c ≠ '.' && !isWordStart c && !c.isDigit

theorem scan_mark {c : Char} (alone : standsAlone c = true) {rest : List Char}
    (noSlash : rest.head? ≠ some '/') :
    (scan (c :: rest)).lexemes = ⟨.none, .symbol c⟩ :: (scan rest).lexemes := by
  simp only [standsAlone, Bool.and_eq_true, Bool.not_eq_true', decide_eq_true_eq] at alone
  obtain ⟨⟨⟨⟨noSpace, noComment⟩, noPoint⟩, noWord⟩, noDigit⟩ := alone
  have visible : splitGap false (c :: rest) = ([], c :: rest) :=
    visible_cons_iff.mpr ⟨noSpace, noComment, fun slashes => noSlash slashes.2⟩
  have found : splitToken (splitGap false (c :: rest)).2 = some (.symbol c, rest) := by
    rw [visible]
    simp [splitToken, noWord, splitNumber, noDigit, splitFraction, noPoint]
  rw [scan_token found, visible]
  rfl

/-- Blanks and comments in front of a text change the gap of its first token only. -/
theorem behind_lexemes {scanned : Scan} {gap : Gap} {first : Token} {rest : List Lexeme}
    (tokens : scanned.lexemes = ⟨gap, first⟩ :: rest) (front : List Char) :
    ∃ other, (scanned.behind front).lexemes = ⟨other, first⟩ :: rest := by
  obtain ⟨pieces, trailing⟩ := scanned
  cases pieces with
  | nil => cases tokens
  | cons piece pieces =>
      obtain ⟨head, tail⟩ := List.cons.inj tokens
      obtain ⟨_, rfl⟩ := Lexeme.mk.inj head
      exact ⟨Gap.ofText (front ++ piece.leading), congrArg _ tail⟩

theorem OperandText.scan_behind (operand : OperandText) (blanks : Blanks) {rest : List Char}
    (stops : Stops rest) :
    ∃ tokens, (scan (blanks.text ++ (operand.text ++ rest))).lexemes = tokens ++ (scan rest).lexemes ∧
      Grammar.IsOperand tokens operand.operand := by
  have whole := scan_before_stop operand.ends stops
  have is := operand.is
  cases own : (scan operand.text).lexemes with
  | nil => exact absurd own is.visible
  | cons first others =>
      rw [own] at whole is
      obtain ⟨other, behind⟩ := behind_lexemes whole blanks.text
      refine ⟨⟨other, first.token⟩ :: others, ?_, is.other_gap⟩
      rw [blanks.filling.scan_behind, behind]
      rfl

theorem marked_lexemes (before after : Blanks) {mark : Char} (alone : standsAlone mark = true)
    (operand : OperandText) {rest : List Char} (stops : Stops rest) :
    ∃ gap tokens, (scan (before.text ++ mark :: (after.text ++ (operand.text ++ rest)))).lexemes =
        ⟨gap, .symbol mark⟩ :: (tokens ++ (scan rest).lexemes) ∧
      Grammar.IsOperand tokens operand.operand := by
  obtain ⟨tokens, inside, is⟩ := operand.scan_behind after stops
  have marked := scan_mark alone (after.no_slash (operand.text ++ rest))
  rw [inside] at marked
  obtain ⟨gap, whole⟩ := behind_lexemes marked before.text
  exact ⟨gap, tokens, by rw [before.filling.scan_behind, whole], is⟩

theorem Link.lexemes (link : Link) {rest : List Char} (stops : Stops rest) :
    ∃ gap tokens, (scan (link.text ++ rest)).lexemes =
        ⟨gap, .symbol (Grammar.operatorSign link.op)⟩ :: (tokens ++ (scan rest).lexemes) ∧
      Grammar.IsOperand tokens link.operand.operand := by
  have alone : standsAlone (Grammar.operatorSign link.op) = true := by cases link.op <;> decide
  have marked := marked_lexemes link.before link.after alone link.operand stops
  simpa only [Link.text, List.append_assoc, List.cons_append] using marked

theorem links_stop (links : List Link) {rest : List Char} (stops : Stops rest) :
    Stops (links.flatMap Link.text ++ rest) := by
  cases links with
  | nil => exact stops
  | cons link links =>
      rw [List.flatMap_cons, Link.text, List.append_assoc, List.append_assoc]
      exact link.before.stops _

/-! ## They are read -/

section Reading

variable (links : List Link) {rest : List Char} (stops : Stops rest)

include stops

theorem links_start_no_point (noPoint : (touching '.').Misses (scan rest).lexemes) :
    (touching '.').Misses (scan (links.flatMap Link.text ++ rest)).lexemes := by
  cases links with
  | nil => exact noPoint
  | cons link links =>
      obtain ⟨gap, tokens, whole, _⟩ := link.lexemes (links_stop links stops)
      rw [List.flatMap_cons, List.append_assoc, whole]
      exact Grammar.mark_is_no_point (by cases link.op <;> decide) gap _

theorem links_repeat {depth : Nat} (noPoint : (touching '.').Misses (scan rest).lexemes)
    (ended : Grammar.operator.Misses (scan rest).lexemes)
    (deep : (scan (links.flatMap Link.text ++ rest)).lexemes.length ≤ depth) :
    ∃ others, Repeats (Grammar.operator >>= fun op => (Grammar.level (depth + 1)).operand >>= fun next =>
        pure (op, next)) (scan (links.flatMap Link.text ++ rest)).lexemes others (scan rest).lexemes ∧
      others.map (fun (op, next) => (op, next.toExpr)) =
        links.map (fun link => (link.op, link.operand.operand.toExpr)) ∧
      ∀ next ∈ others, next.2.Unbroken := by
  induction links with
  | nil => exact ⟨[], .stop (bind_misses _ ended), rfl, by simp⟩
  | cons link links induction =>
      obtain ⟨gap, tokens, whole, is⟩ := link.lexemes (links_stop links stops)
      rw [List.flatMap_cons, List.append_assoc, whole] at deep ⊢
      rw [List.length_cons, List.length_append] at deep
      obtain ⟨others, repeated, same, unbroken⟩ := induction (by omega)
      have deeper : tokens.length ≤ depth := by omega
      have reads := Grammar.joined_operand_reads deeper link.op gap is
        (links_start_no_point links stops noPoint)
      refine ⟨_, .more reads ?_ repeated, ?_, List.forall_mem_cons.mpr
        ⟨Operand.unbroken_move _ link.operand.unbroken, unbroken⟩⟩
      · rw [List.length_cons, List.length_append]
        omega
      · simp only [List.map_cons, same, Operand.to_expr_move]

end Reading

theorem semicolon_lexemes : (scan [';']).lexemes = [⟨.none, .symbol ';'⟩] := by
  decide +kernel

theorem semicolon_stops : Stops [';'] := ⟨';', rfl, by decide, by decide⟩

theorem name_reads {target : String} (name : isName target = true) :
    Grammar.identifier.Reads (scan target.toList).lexemes target [] ∧ (scan target.toList).trailing = [] ∧
      ∃ text, firstToken (scan target.toList).lexemes = some (.word text) ∧
        Grammar.keywords.contains (String.ofList text) = false := by
  obtain ⟨_, _, _, _, _, word⟩ := name_tokens name
  have spelled := word.spelled
  have tokens : (scan target.toList).lexemes = lexemesOf .none [target] := by
    rw [Scan.lexemes, spelled, placed_lexemes, lexemesOf, lexemesOf, List.append_nil]
    rfl
  obtain ⟨first, noKeyword, start⟩ := name_first name .none []
  rw [tokens]
  refine ⟨identifier_reads name .none [], ?_, first, start, noKeyword⟩
  rw [spelled]

namespace OperatorChain

variable (chain : OperatorChain)

def behind : List Char := chain.links.flatMap Link.text ++ [';']

theorem behind_stops : Stops chain.behind := links_stop chain.links semicolon_stops

/-- The operands of a chain are read one after another, up to the semicolon. -/
theorem chain_reads {depth : Nat} {tokens : List Lexeme}
    (is : Grammar.IsOperand tokens chain.first.operand)
    (deep : (tokens ++ (scan chain.behind).lexemes).length ≤ depth) :
    ∃ found, (Grammar.chain (Grammar.level (depth + 1)).operand).Reads
        (tokens ++ (scan chain.behind).lexemes) found [⟨.none, .symbol ';'⟩] ∧
      found.toJoined = chain.listed.map (fun operand => operand.operand.toExpr) ∧ found.Unbroken := by
  rw [List.length_append] at deep
  have noPoint : (touching '.').Misses (scan [';']).lexemes := by
    rw [semicolon_lexemes]
    exact Grammar.mark_is_no_point (by decide) _ _
  have ended : Grammar.operator.Misses (scan [';']).lexemes := by
    rw [semicolon_lexemes]
    exact operator_misses (by intro op; cases op <;> decide)
  have more : (scan chain.behind).lexemes.length ≤ depth := by omega
  obtain ⟨others, repeated, same, unbroken⟩ := links_repeat chain.links semicolon_stops noPoint ended more
  have deeper : tokens.length ≤ depth := by omega
  have first := is.before (links_start_no_point chain.links semicolon_stops noPoint) deeper
  rw [semicolon_lexemes] at repeated
  refine ⟨_, named_reads (bind_reads first (bind_reads (many_reads repeated) (pure_reads _ _))), ?_,
    Chain.of_list_unbroken (Operand.unbroken_move _ chain.first.unbroken) unbroken⟩
  rw [Chain.of_list_joined, same, Operand.to_expr_move]
  simp [Joined.map, listed]

def assigns (target : String) : StatementKind :=
  .assignment target (Expr.ofChain (chain.listed.map (fun operand => operand.operand.toExpr)))

theorem assignment_reads {depth : Nat} {name tokens : List Lexeme} {target : String} (gap : Gap)
    (named : Grammar.identifier.Reads name target [])
    (is : Grammar.IsOperand tokens chain.first.operand)
    (deep : (tokens ++ (scan chain.behind).lexemes).length ≤ depth) :
    ∃ form, (Grammar.assignment (Grammar.level (depth + 1))).Reads
        (name ++ ⟨gap, .symbol '='⟩ :: (tokens ++ (scan chain.behind).lexemes)) form
        [⟨.none, .symbol ';'⟩] ∧
      form.toKind = chain.assigns target ∧ form.Unbroken := by
  obtain ⟨found, reads, same, unbroken⟩ := chain.chain_reads is deep
  have noCondition : (Grammar.conditional (Grammar.level (depth + 1)).operand
      (Grammar.level depth).phrase).Misses [⟨.none, .symbol ';'⟩] :=
    named_misses (bind_misses _ (keyword_misses (by decide)))
  have phrase : (Grammar.level (depth + 1)).phrase.Reads (tokens ++ (scan chain.behind).lexemes)
      (.plain found) [⟨.none, .symbol ';'⟩] :=
    named_reads (bind_reads reads (bind_reads (optional_reads_none noCondition) (pure_reads _ _)))
  have noPoint := Grammar.mark_is_no_point (by decide : '=' ≠ '.') gap
    (tokens ++ (scan chain.behind).lexemes)
  refine ⟨.assignment target (.plain found), named_reads (bind_reads
    (Grammar.identifier_before noPoint named) (bind_reads (symbol_reads '=' gap _)
      (bind_reads phrase (pure_reads _ _)))), ?_, unbroken⟩
  rw [StatementForm.toKind, Phrase.toExpr, same, assigns]

theorem assignment_is_read {target : String} (name : isName target = true) :
    ∃ written, (Grammar.read (scan (chain.assignedTo target).toList).lexemes).outcome =
        some ([written], []) ∧
      written.form.toKind = chain.assigns target ∧ written.form.Unbroken := by
  -- the tokens are those of the target, an equals sign, those of the first operand and the others
  obtain ⟨reads, ends, text, first, noKeyword⟩ := name_reads name
  obtain ⟨gap, tokens, assigned, is⟩ :=
    marked_lexemes .single .single (by decide : standsAlone '=' = true) chain.first chain.behind_stops
  have source : (chain.assignedTo target).toList = target.toList ++
      (Blanks.single.text ++ '=' :: (Blanks.single.text ++ (chain.first.text ++ chain.behind))) := by
    simp [assignedTo, OperatorChain.text, behind, Blanks.single]
  have whole := scan_before_stop ends
    (Blanks.single.stops ('=' :: (Blanks.single.text ++ (chain.first.text ++ chain.behind))))
  rw [← source, assigned] at whole
  generalize (scan (chain.assignedTo target).toList).lexemes = all at whole
  have length := congrArg List.length whole
  simp only [List.length_append, List.length_cons] at length
  have deep : (tokens ++ (scan chain.behind).lexemes).length ≤ all.length := by
    rw [List.length_append]
    omega
  obtain ⟨form, assignment, kind, unbroken⟩ := chain.assignment_reads gap reads is deep
  have start : firstToken all = some (.word text) := by
    rw [whole]
    exact Grammar.IsOperand.first_before first
  rw [← whole] at assignment
  have statement : (Grammar.statement (Grammar.level (all.length + 1))).Reads all
      ⟨⟨all.length, 1, Grammar.isSpaced form⟩, form⟩ [] :=
    bind_reads (ahead_reads _) (bind_reads (form_reads_assignment start noKeyword assignment)
      (bind_reads (ahead_reads _) (bind_reads (symbol_reads ';' .none []) (pure_reads _ _))))
  have shorter : ([] : List Lexeme).length < all.length := by
    rw [List.length_nil]
    omega
  exact ⟨_, Grammar.read_some_iff.mpr ⟨rfl, .more statement shorter
    (.stop (statement_misses_nothing _))⟩, kind, unbroken⟩

end OperatorChain

/-! ## They are grouped by precedence -/

/-- A chain of operands with blanks around its operators is read as a tree that lists its operands and
operators from left to right and groups them by precedence, and no other tree does both. -/
theorem chains_group_by_precedence {target : String} (name : isName target = true) (chain : OperatorChain) :
    ∃ tree : OperatorTree OperandText,
      (tree.listed = chain.listed ∧ tree.Grouped) ∧
      (∀ other : OperatorTree OperandText, other.listed = chain.listed → other.Grouped → other = tree) ∧
      (∀ limit statements, parse limit (chain.assignedTo target) = .ok statements →
        statements.map Statement.kind =
          [.assignment target (tree.toExpr (fun operand => operand.operand.toExpr))]) ∧
      ∃ depth, ∀ limit, depth ≤ limit →
        ∃ statements, parse limit (chain.assignedTo target) = .ok statements := by
  have listed := OperatorTree.of_chain_listed chain.listed
  have grouped := OperatorTree.of_chain_grouped chain.listed
  obtain ⟨written, read, kind, unbroken⟩ := chain.assignment_is_read name
  refine ⟨OperatorTree.ofChain chain.listed, ⟨listed, grouped⟩, ?_, ?_, written.form.height, ?_⟩
  · intro other sameListed otherGrouped
    exact OperatorTree.grouped_unique otherGrouped grouped (sameListed.trans listed.symm)
  · intro limit statements accepted
    obtain ⟨own, found, _, rfl⟩ := parse_ok_iff.mp accepted
    rw [read] at found
    cases found
    rw [OperatorTree.of_chain_to_expr]
    exact congrArg (fun kind => [kind]) kind
  · intro limit deep
    have faultless : ∀ statement ∈ [written], statement.form.faults limit = [] := by
      rw [List.forall_mem_singleton]
      exact (written.form.faults_nil_iff limit).mpr ⟨unbroken, deep⟩
    exact ⟨_, parse_ok_iff.mpr ⟨_, read, faultless, rfl⟩⟩

def signedNumber : OperandText where
  text := "- 2.5".toList
  operand := .number ⟨2, 0, false⟩ (some ('-', .blank)) "2.5".toList
  is := by
    have tokens : (scan "- 2.5".toList).lexemes =
        [⟨.none, .symbol '-'⟩, ⟨.blank, .digits "2.5".toList⟩] := by
      decide +kernel
    rw [tokens]
    exact .number rfl
  ends := by decide +kernel
  unbroken := by simp [Operand.Unbroken]

def namedCost : OperandText where
  text := "costs.energy".toList
  operand := .path ⟨3, 0, false⟩ "costs.energy"
  is := by
    have tokens : (scan "costs.energy".toList).lexemes =
        [⟨.none, .word "costs".toList⟩, ⟨.none, .symbol '.'⟩, ⟨.none, .word "energy".toList⟩] := by
      decide +kernel
    rw [tokens]
    exact .path rfl
  ends := by decide +kernel
  unbroken := by simp [Operand.Unbroken]

def bothCosts : OperandText where
  text := "lifecycle of [a, # and\n b]".toList
  operand := .lifecycle ⟨7, 0, false⟩ ["a", "b"]
  is := by
    have tokens : (scan "lifecycle of [a, # and\n b]".toList).lexemes =
        [⟨.none, .word "lifecycle".toList⟩, ⟨.blank, .word "of".toList⟩, ⟨.blank, .symbol '['⟩,
          ⟨.none, .word "a".toList⟩, ⟨.none, .symbol ','⟩, ⟨.comment, .word "b".toList⟩,
          ⟨.none, .symbol ']'⟩] := by
      decide +kernel
    rw [tokens]
    exact .lifecycle rfl
  ends := by decide +kernel
  unbroken := by simp [Operand.Unbroken]

def sumInside : OperandText where
  text := "(1 + c)".toList
  operand := .group ⟨5, 0, false⟩ (.plain (.join (.number ⟨4, 3, false⟩ none ['1']) .add
    (.last (.path ⟨2, 1, false⟩ "c"))))
  is := by
    have tokens : (scan "(1 + c)".toList).lexemes =
        [⟨.none, .symbol '('⟩, ⟨.none, .digits ['1']⟩, ⟨.blank, .symbol '+'⟩, ⟨.blank, .word ['c']⟩,
          ⟨.none, .symbol ')'⟩] := by
      decide +kernel
    rw [tokens]
    exact .group rfl
  ends := by decide +kernel
  unbroken := by simp [Operand.Unbroken, Phrase.Unbroken, Chain.Unbroken]

def Link.spaced (op : BinaryOp) (operand : OperandText) : Link := ⟨.single, op, .single, operand⟩

/-- A chain with every kind of operand and operators of all precedences. -/
def mixedChain : OperatorChain :=
  ⟨namedCost, [.spaced .sub signedNumber, .spaced .pow sumInside, .spaced .pow signedNumber,
    .spaced .div bothCosts, .spaced .sub namedCost]⟩

def mixedTree : OperatorTree OperandText :=
  .joined .sub
    (.joined .sub (.operand namedCost)
      (.joined .div
        (.joined .pow (.operand signedNumber)
          (.joined .pow (.operand sumInside) (.operand signedNumber)))
        (.operand bothCosts)))
    (.operand namedCost)

theorem mixed_chain_is_grouped :
    isName "total" = true ∧
      mixedChain.assignedTo "total" = "total = costs.energy - - 2.5 ^ (1 + c) ^ - 2.5 / " ++
        "lifecycle of [a, # and\n b] - costs.energy;" ∧
      ∃ depth, ∀ limit, depth ≤ limit → ∃ statements,
        parse limit (mixedChain.assignedTo "total") = .ok statements ∧
        statements.map Statement.kind = [.assignment "total" (.binary .sub
          (.binary .sub (.path "costs.energy") (.binary .div
            (.binary .pow (.number (-2.5)) (.binary .pow (.binary .add (.number 1.0) (.path "c"))
              (.number (-2.5)))) (.lifecycle ["a", "b"]))) (.path "costs.energy"))] := by
  have name : isName "total" = true := by decide +kernel
  obtain ⟨tree, _, unique, kinds, depth, accepted⟩ := chains_group_by_precedence name mixedChain
  have grouped : mixedTree.Grouped := by
    simp [mixedTree, OperatorTree.Grouped, OperatorTree.top?, BinaryOp.LeftOf, BinaryOp.RightOf,
      BinaryOp.Below, BinaryOp.binding]
  obtain rfl := unique mixedTree rfl grouped
  refine ⟨name, by decide +kernel, depth, fun limit deep => ?_⟩
  obtain ⟨statements, read⟩ := accepted limit deep
  refine ⟨statements, read, (kinds limit statements read).trans ?_⟩
  decide +kernel

end PolicyLevers.Script
