import PolicyLevers.Program.Lowering
import PolicyLevers.Proofs.ClosedOperands
import PolicyLevers.Proofs.NumberTexts
import PolicyLevers.Proofs.OperatorGrouping
import PolicyLevers.Proofs.PrintedScripts

/-!
# What the nesting limit does

The limit decides whether a script is accepted, and nothing else: from some limit on, every limit accepts
it with the same statements, and below that every limit refuses it for its nesting.  The operators of a
chain do not count as nesting, but each of them may be a level of the tree.  So the limit bounds how high
the trees of a script grow for chains of a given length, and not beyond.
-/

namespace PolicyLevers

set_option autoImplicit false

def Expression.height : Expression → Nat
  | .number _ => 0
  | .read _ => 0
  | .binary _ left right => max left.height right.height + 1
  | .conditional _ left right consequent alternative =>
    max (max left.height right.height) (max consequent.height alternative.height) + 1
  | .lifecycle _ => 0
  | .uniform low high => max low.height high.height + 1
  | .normal mean deviation => max mean.height deviation.height + 1
  | .repeated _ count body => max count.height body.height + 1

namespace Script

/-! ## One threshold -/

theorem greatest_le_iff {α : Type} (measure : α → Nat) (items : List α) (base limit : Nat) :
    items.foldr (fun item rest => max (measure item) rest) base ≤ limit ↔
      base ≤ limit ∧ ∀ item ∈ items, measure item ≤ limit := by
  induction items with
  | nil => simp
  | cons item items induction =>
      rw [List.foldr_cons, Nat.max_le, induction, List.forall_mem_cons, and_left_comm]

def tallest (written : List WrittenStatement) : Nat :=
  written.foldr (fun statement rest => max statement.form.height rest) 0

theorem tallest_le_iff (written : List WrittenStatement) (limit : Nat) :
    tallest written ≤ limit ↔ ∀ statement ∈ written, statement.form.height ≤ limit := by
  rw [tallest, greatest_le_iff]
  exact and_iff_right (Nat.zero_le limit)

section Accepted

variable {source : String} {written : List WrittenStatement} {rest : List Lexeme}
  (accepted : (Grammar.read (scan source.toList).lexemes).outcome = some (written, rest))

include accepted

/-- A number with a comment in it is refused whatever the limit. -/
theorem broken_number_refused {statement : WrittenStatement} (member : statement ∈ written)
    {number : Operand} (inside : number ∈ statement.form.numbers) (torn : ¬number.Unbroken) (limit : Nat) :
    ∃ error, parse limit source = .error error := by
  cases parsed : parse limit source with
  | error error => exact ⟨error, rfl⟩
  | ok statements =>
      have whole := (accepted_ok_iff accepted limit).mp ⟨statements, parsed⟩ statement member
      exact absurd (whole.2 number inside) torn

variable (whole : ∀ statement ∈ written, ∀ number ∈ statement.form.numbers, number.Unbroken)

include whole

theorem parse_from_threshold {limit : Nat} (high : tallest written ≤ limit) :
    parse limit source = .ok (written.map (WrittenStatement.placed (scan source.toList))) := by
  have heights := (tallest_le_iff written limit).mp high
  obtain ⟨statements, parsed⟩ := (accepted_ok_iff accepted limit).mpr
    (fun statement member => ⟨heights statement member, whole statement member⟩)
  obtain ⟨own, found, _, rfl⟩ := parse_ok_iff.mp parsed
  rw [accepted] at found
  cases found
  exact parsed

theorem parse_below_threshold {limit : Nat} (low : limit < tallest written) :
    ∃ error, parse limit source = .error error ∧ error.fault = .tooDeep limit := by
  cases parsed : parse limit source with
  | ok statements =>
      have heights := (accepted_ok_iff accepted limit).mp ⟨statements, parsed⟩
      have high := (tallest_le_iff written limit).mpr (fun statement member => (heights statement member).1)
      exact absurd high (Nat.not_le_of_lt low)
  | error error =>
      refine ⟨error, rfl, ?_⟩
      rcases accepted_error accepted parsed with deep | ⟨_, statement, member, number, inside, torn, _⟩
      · exact deep
      · exact absurd (whole statement member number inside) torn

end Accepted

/-- A script is refused by every limit, or refused for its nesting below some limit and read as the same
statements from there on. -/
theorem limits_only_filter (source : String) :
    (∀ limit, ∃ error, parse limit source = .error error) ∨
    ∃ threshold statements,
      (∀ limit, limit < threshold →
        ∃ error, parse limit source = .error error ∧ error.fault = .tooDeep limit) ∧
      ∀ limit, threshold ≤ limit → parse limit source = .ok statements := by
  cases accepted : (Grammar.read (scan source.toList).lexemes).outcome with
  | none =>
      refine Or.inl (fun limit => ?_)
      unfold parse
      dsimp only
      rw [accepted]
      exact ⟨_, rfl⟩
  | some result =>
      obtain ⟨written, rest⟩ := result
      by_cases whole : ∀ statement ∈ written, ∀ number ∈ statement.form.numbers, number.Unbroken
      · exact Or.inr ⟨tallest written, _, fun limit => parse_below_threshold accepted whole,
          fun limit => parse_from_threshold accepted whole⟩
      · push Not at whole
        obtain ⟨statement, member, number, inside, torn⟩ := whole
        exact Or.inl (broken_number_refused accepted member inside torn)

/-! ## The height of trees -/

def Expr.height : Expr → Nat
  | .number _ => 0
  | .path _ => 0
  | .binary _ left right => max left.height right.height + 1
  | .conditional _ left right consequent alternative =>
    max (max left.height right.height) (max consequent.height alternative.height) + 1
  | .lifecycle _ => 0
  | .uniform low high => max low.height high.height + 1
  | .normal mean deviation => max mean.height deviation.height + 1
  | .repeated _ count body => max count.height body.height + 1

theorem lower_height (expr : Expr) : expr.lower.height = expr.height := by
  induction expr with
  | number value => rfl
  | path text => rfl
  | lifecycle paths => rfl
  | binary op left right leftSame rightSame =>
      rw [Expr.lower, Expression.height, Expr.height, leftSame, rightSame]
  | conditional test left right consequent alternative leftSame rightSame sameThen sameElse =>
      rw [Expr.lower, Expression.height, Expr.height, leftSame, rightSame, sameThen, sameElse]
  | uniform low high lowSame highSame =>
      rw [Expr.lower, Expression.height, Expr.height, lowSame, highSame]
  | normal mean deviation meanSame deviationSame =>
      rw [Expr.lower, Expression.height, Expr.height, meanSame, deviationSame]
  | repeated reducer count body countSame bodySame =>
      rw [Expr.lower, Expression.height, Expr.height, countSame, bodySame]

/-! ## Operators in chains -/

def Chain.operatorCount : Chain → Nat
  | .last _ => 0
  | .join _ _ rest => rest.operatorCount + 1

mutual

def Operand.longestChain : Operand → Nat
  | .number _ _ _ => 0
  | .path _ _ => 0
  | .lifecycle _ _ => 0
  | .uniform _ low high =>
    max (max low.operatorCount low.longestInside) (max high.operatorCount high.longestInside)
  | .normal _ mean deviation =>
    max (max mean.operatorCount mean.longestInside)
      (max deviation.operatorCount deviation.longestInside)
  | .repeated _ _ count body => max count.longestChain body.longestChain
  | .group _ body => body.longestChain

def Chain.longestInside : Chain → Nat
  | .last operand => operand.longestChain
  | .join operand _ rest => max operand.longestChain rest.longestInside

def Phrase.longestChain : Phrase → Nat
  | .plain value => max value.operatorCount value.longestInside
  | .conditional value left _ right alternative =>
    max (max (max value.operatorCount value.longestInside) alternative.longestChain)
      (max (max left.operatorCount left.longestInside) (max right.operatorCount right.longestInside))

end

def Chain.longestChain (chain : Chain) : Nat := max chain.operatorCount chain.longestInside

def StatementForm.longestChain : StatementForm → Nat
  | .definition _ value => value.longestChain
  | .assignment _ value => value.longestChain
  | .limit _ lower upper =>
    max ((lower.map Phrase.longestChain).getD 0) ((upper.map Phrase.longestChain).getD 0)
  | .distribute value targets _ =>
    targets.foldr (fun target rest => max ((target.2.map Chain.longestChain).getD 0) rest)
      value.longestChain
  | .change _ delta start finish =>
    max delta.longestChain (max start.longestChain finish.longestChain)
  | .inspect _ value => value.longestChain

/-! ## Trees are no higher than nesting and chains allow -/

/-- Every operator of a tree may be a level, above the levels of its operands. -/
theorem OperatorTree.to_expr_height {α : Type} (value : α → Expr) (tree : OperatorTree α) {most : Nat}
    (low : ∀ leaf ∈ tree.listed.parts, (value leaf).height ≤ most) :
    (tree.toExpr value).height ≤ tree.operators.length + most := by
  induction tree with
  | operand leaf => exact Nat.le_trans (low leaf List.mem_cons_self) (Nat.le_add_left _ _)
  | joined op left right leftInduction rightInduction =>
      have parts : (OperatorTree.joined op left right).listed.parts =
          left.listed.parts ++ right.listed.parts := by
        simp [OperatorTree.listed, Joined.parts]
      rw [parts, List.forall_mem_append] at low
      have lefts := leftInduction low.1
      have rights := rightInduction low.2
      rw [OperatorTree.toExpr, Expr.height, OperatorTree.operators_joined, List.length_append,
        List.length_cons]
      omega

theorem of_chain_height {chain : Joined Expr} {most : Nat}
    (low : ∀ part ∈ chain.parts, part.height ≤ most) :
    (Expr.ofChain chain).height ≤ chain.operators.length + most := by
  have listed := OperatorTree.of_chain_listed chain
  have same := OperatorTree.of_chain_to_expr id chain
  rw [Joined.map_id] at same
  have height := OperatorTree.to_expr_height id (OperatorTree.ofChain chain) (by rwa [listed])
  rwa [same, OperatorTree.operators, listed] at height

theorem to_joined_operators (chain : Chain) :
    chain.toJoined.operators.length = chain.operatorCount := by
  fun_induction Chain.operatorCount chain with
  | case1 operand => rfl
  | case2 operand op rest others =>
      simpa [Joined.operators, Chain.toJoined] using others

theorem chain_height {chain : Chain} {most low : Nat} (short : chain.operatorCount ≤ most)
    (parts : ∀ part ∈ chain.toJoined.parts, part.height ≤ low) :
    (Expr.ofChain chain.toJoined).height ≤ most + low := by
  have height := of_chain_height parts
  rw [to_joined_operators] at height
  omega

theorem below_level {height inner outer most : Nat} (within : height ≤ most + inner * (most + 1))
    (deeper : inner < outer) : height < outer * (most + 1) := by
  have levels : (inner + 1) * (most + 1) ≤ outer * (most + 1) := Nat.mul_le_mul_right _ deeper
  rw [Nat.succ_mul] at levels
  omega

mutual

theorem Operand.to_expr_height {most : Nat} : ∀ operand : Operand, operand.longestChain ≤ most →
    operand.toExpr.height ≤ operand.height * (most + 1)
  | .number _ _ _, _ => Nat.zero_le _
  | .path _ _, _ => Nat.zero_le _
  | .lifecycle _ _, _ => Nat.zero_le _
  | .uniform extent low high, short => by
      simp only [Operand.longestChain, Nat.max_le] at short
      obtain ⟨⟨lowShort, lowInside⟩, highShort, highInside⟩ := short
      have lows := chain_height lowShort (low.to_joined_height lowInside)
      have highs := chain_height highShort (high.to_joined_height highInside)
      rw [Operand.height]
      exact Nat.max_lt.mpr ⟨below_level lows (by omega), below_level highs (by omega)⟩
  | .normal extent mean deviation, short => by
      simp only [Operand.longestChain, Nat.max_le] at short
      obtain ⟨⟨meanShort, meanInside⟩, deviationShort, deviationInside⟩ := short
      have means := chain_height meanShort (mean.to_joined_height meanInside)
      have deviations := chain_height deviationShort (deviation.to_joined_height deviationInside)
      rw [Operand.height]
      exact Nat.max_lt.mpr ⟨below_level means (by omega), below_level deviations (by omega)⟩
  | .repeated extent reducer count body, short => by
      simp only [Operand.longestChain, Nat.max_le] at short
      have counts := Nat.le_add_left_of_le (k := most) (count.to_expr_height short.1)
      have bodies := Nat.le_add_left_of_le (k := most) (body.to_expr_height short.2)
      rw [Operand.height]
      exact Nat.max_lt.mpr ⟨below_level counts (by omega), below_level bodies (by omega)⟩
  | .group extent body, short => by
      have bodies := body.to_expr_height short
      exact Nat.le_of_lt (below_level (Nat.le_add_left_of_le bodies) (Nat.lt_succ_self _))

theorem Chain.to_joined_height {most : Nat} : ∀ chain : Chain, chain.longestInside ≤ most →
    ∀ part ∈ chain.toJoined.parts, part.height ≤ chain.height * (most + 1)
  | .last operand, short =>
      List.forall_mem_singleton.mpr (operand.to_expr_height short)
  | .join operand op rest, short => by
      simp only [Chain.longestInside, Nat.max_le] at short
      have parts : (Chain.join operand op rest).toJoined.parts =
          operand.toExpr :: rest.toJoined.parts := by
        simp [Joined.parts, Chain.toJoined]
      have here := operand.to_expr_height short.1
      have others := rest.to_joined_height short.2
      rw [parts, Chain.height, List.forall_mem_cons]
      refine ⟨Nat.le_trans here (Nat.mul_le_mul_right _ (Nat.le_max_left _ _)), ?_⟩
      intro part member
      exact Nat.le_trans (others part member) (Nat.mul_le_mul_right _ (Nat.le_max_right _ _))

theorem Phrase.to_expr_height {most : Nat} : ∀ phrase : Phrase, phrase.longestChain ≤ most →
    phrase.toExpr.height ≤ phrase.height * (most + 1)
  | .plain value, short => by
      simp only [Phrase.longestChain, Nat.max_le] at short
      have values := chain_height short.1 (value.to_joined_height short.2)
      rw [Phrase.height]
      exact Nat.le_of_lt (below_level values (by omega))
  | .conditional value left test right alternative, short => by
      simp only [Phrase.longestChain, Nat.max_le] at short
      obtain ⟨⟨⟨valueShort, valueInside⟩, otherShort⟩, ⟨leftShort, leftInside⟩, rightShort,
        rightInside⟩ := short
      have values := chain_height valueShort (value.to_joined_height valueInside)
      have lefts := chain_height leftShort (left.to_joined_height leftInside)
      have rights := chain_height rightShort (right.to_joined_height rightInside)
      have others := alternative.to_expr_height otherShort
      rw [Phrase.height]
      exact Nat.max_lt.mpr
        ⟨Nat.max_lt.mpr ⟨below_level lefts (by omega), below_level rights (by omega)⟩,
          Nat.max_lt.mpr ⟨below_level values (by omega),
            below_level (Nat.le_add_left_of_le others) (by omega)⟩⟩

end

theorem Chain.to_expr_height {most : Nat} (chain : Chain) (short : chain.longestChain ≤ most) :
    chain.toExpr.height ≤ (chain.height + 1) * (most + 1) := by
  rw [Chain.longestChain, Nat.max_le] at short
  exact Nat.le_of_lt (below_level (chain_height short.1 (chain.to_joined_height short.2))
    (Nat.lt_succ_self _))

theorem optional_le_iff {α : Type} (measure : α → Nat) (part : Option α) (limit : Nat) :
    (part.map measure).getD 0 ≤ limit ↔ ∀ value ∈ part, measure value ≤ limit := by
  cases part <;> simp

theorem form_expr_height {most limit : Nat} (form : StatementForm) (short : form.longestChain ≤ most)
    (low : form.height ≤ limit) :
    ∀ expr ∈ form.toKind.expressions, expr.height ≤ limit * (most + 1) := by
  have phrases {phrase : Phrase} (own : phrase.longestChain ≤ most) (height : phrase.height ≤ limit) :
      phrase.toExpr.height ≤ limit * (most + 1) :=
    Nat.le_trans (phrase.to_expr_height own) (Nat.mul_le_mul_right _ height)
  have chains {chain : Chain} (own : chain.longestChain ≤ most) (height : chain.height + 1 ≤ limit) :
      chain.toExpr.height ≤ limit * (most + 1) :=
    Nat.le_trans (chain.to_expr_height own) (Nat.mul_le_mul_right _ height)
  cases form with
  | definition name value => exact List.forall_mem_singleton.mpr (phrases short low)
  | assignment target value => exact List.forall_mem_singleton.mpr (phrases short low)
  | inspect label value => exact List.forall_mem_singleton.mpr (phrases short low)
  | change target delta start finish =>
      simp only [StatementForm.longestChain, Nat.max_le] at short
      simp only [StatementForm.height] at low
      obtain ⟨deltaShort, startShort, finishShort⟩ := short
      intro expr member
      simp only [StatementForm.toKind, StatementKind.expressions, List.mem_cons, List.not_mem_nil,
        or_false] at member
      rcases member with rfl | rfl | rfl
      · exact chains deltaShort (by omega)
      · exact chains startShort (by omega)
      · exact chains finishShort (by omega)
  | limit target lower upper =>
      simp only [StatementForm.longestChain, Nat.max_le, optional_le_iff] at short
      simp only [StatementForm.height, Nat.max_le, optional_le_iff] at low
      intro expr member
      simp only [StatementForm.toKind, StatementKind.expressions, List.mem_append, Option.mem_toList,
        Option.map_eq_some_iff] at member
      rcases member with ⟨phrase, own, rfl⟩ | ⟨phrase, own, rfl⟩
      · exact phrases (short.1 phrase own) (low.1 phrase own)
      · exact phrases (short.2 phrase own) (low.2 phrase own)
  | distribute value targets split =>
      simp only [StatementForm.longestChain, greatest_le_iff, optional_le_iff] at short
      simp only [StatementForm.height, greatest_le_iff, optional_le_iff] at low
      obtain ⟨valueShort, weightShort⟩ := short
      obtain ⟨valueLow, weightLow⟩ := low
      refine List.forall_mem_cons.mpr ⟨phrases valueShort valueLow, ?_⟩
      intro expr member
      obtain ⟨target, inside, weighted⟩ := List.mem_filterMap.mp member
      obtain ⟨⟨place, weight⟩, listed, rfl⟩ := List.mem_map.mp inside
      obtain ⟨chain, own, rfl⟩ := Option.map_eq_some_iff.mp weighted
      exact chains (weightShort _ listed chain own) (weightLow _ listed chain own)

/-- The operators of the longest chain in a script that is accepted. -/
def longestChain (source : String) : Nat :=
  match (Grammar.read (scan source.toList).lexemes).outcome with
  | none => 0
  | some (written, _) =>
    written.foldr (fun statement rest => max statement.form.longestChain rest) 0

/-- No tree of an accepted script, and nothing it is lowered to, is higher than the limit times the number
of operands in its longest chain. -/
theorem limit_and_chains_bound_trees {limit : Nat} {source : String} {statements : List Statement}
    (parsed : parse limit source = .ok statements) :
    ∀ statement ∈ statements, ∀ expr ∈ statement.kind.expressions,
      expr.height ≤ limit * (longestChain source + 1) ∧
        expr.lower.height ≤ limit * (longestChain source + 1) := by
  obtain ⟨written, found, faultless, rfl⟩ := parse_ok_iff.mp parsed
  have chains : ∀ statement ∈ written, statement.form.longestChain ≤ longestChain source := by
    have bound := Nat.le_refl (longestChain source)
    nth_rewrite 1 [longestChain] at bound
    rw [found] at bound
    exact ((greatest_le_iff _ _ _ _).mp bound).2
  intro statement member expr inside
  obtain ⟨own, listed, rfl⟩ := List.mem_map.mp member
  have low := ((own.form.faults_nil_iff limit).mp (faultless own listed)).2
  have height := form_expr_height own.form (chains own listed) low expr inside
  exact ⟨height, by rwa [lower_height]⟩

theorem product_in_sum_is_low :
    parse 2 "x = a + b * c;" = .ok [⟨⟨0, 13⟩, .assignment "x"
      (.binary .add (.path "a") (.binary .mul (.path "b") (.path "c")))⟩] ∧
    longestChain "x = a + b * c;" = 2 ∧
    (Expr.binary .add (.path "a") (.binary .mul (.path "b") (.path "c"))).height ≤
      2 * (longestChain "x = a + b * c;" + 1) := by
  have parsed : parse 2 "x = a + b * c;" = .ok [⟨⟨0, 13⟩, .assignment "x"
      (.binary .add (.path "a") (.binary .mul (.path "b") (.path "c")))⟩] := by
    decide +kernel
  refine ⟨parsed, by decide +kernel, ?_⟩
  exact (limit_and_chains_bound_trees parsed _ (List.mem_singleton_self _) _
    (List.mem_singleton_self _)).1

/-! ## The limit alone bounds nothing -/

theorem group_left_height (chain : Joined Expr) :
    chain.operators.length ≤ (Expr.groupLeft chain).height := by
  obtain ⟨first, others⟩ := chain
  unfold Expr.groupLeft Joined.operators
  dsimp only
  -- the tree so far grows by one level for each operator
  have grows : first.height + others.length ≤
      (others.foldl (fun left next => Expr.binary next.1 left next.2) first).height := by
    induction others generalizing first with
    | nil => exact Nat.le_refl _
    | cons next rest induction =>
        have further := induction (.binary next.1 first next.2)
        rw [Expr.height] at further
        rw [List.foldl_cons, List.length_cons]
        omega
  rw [List.length_map]
  omega

theorem sums_are_levels (chain : Joined Expr) :
    (chain.operators.filter Expr.isAdditive).length ≤ (Expr.ofChain chain).height := by
  have levels := group_left_height
    ((Joined.cutAt Expr.isAdditive chain.first chain.others).map Expr.ofProduct)
  rwa [Joined.map_operators, Joined.cut_operators] at levels

open PolicyLevers.Script.Parser

def addedWords (count : Nat) : List String := (List.replicate count ["+", "a"]).flatten

/-- The words of an assignment of a sum with `count` signs in it. -/
def sumWords (count : Nat) : List String := "x" :: "=" :: "a" :: (addedWords count ++ [";"])

theorem sum_words (count : Nat) : AreWords (sumWords count) := by
  apply fixed_are_words
  rw [List.all_eq_true]
  intro word member
  have listed : word = "x" ∨ word = "=" ∨ word = "a" ∨ word = "+" ∨ word = ";" := by
    simp only [sumWords, addedWords, List.mem_append, List.mem_flatten, List.mem_replicate,
      List.mem_cons, List.not_mem_nil, or_false] at member
    rcases member with rfl | rfl | rfl | ⟨_, ⟨_, rfl⟩, own⟩ | rfl
    · simp
    · simp
    · simp
    · rcases List.mem_pair.mp own with rfl | rfl <;> simp
    · simp
  rcases listed with rfl | rfl | rfl | rfl | rfl <;> decide +kernel

theorem Chain.of_list_height {first : Operand} {others : List (BinaryOp × Operand)}
    (flat : first.height = 0) (all : ∀ next ∈ others, next.2.height = 0) :
    (Chain.ofList first others).height = 0 := by
  induction others generalizing first with
  | nil => exact flat
  | cons next rest induction =>
      obtain ⟨here, later⟩ := List.forall_mem_cons.mp all
      rw [Chain.ofList, Chain.height, flat, induction here later]
      rfl

section Sums

variable (operand : Parser Operand) (phrase : Parser Phrase)

theorem sum_operand_reads (words : List String) :
    ∃ extent, (Grammar.operandOf operand phrase).Reads (lexemesOf .blank ("a" :: words))
      (.path extent "a") (lexemesOf .blank words) := by
  have name : isName "a" = true := by decide +kernel
  obtain ⟨first, noKeyword, start⟩ := name_first name .blank words
  have found : Grammar.path.Reads (lexemesOf .blank ("a" :: words)) (.path _ "a")
      (lexemesOf .blank words) :=
    bind_reads (ahead_reads _) (bind_reads (identifier_reads name .blank words)
      (bind_reads (ahead_reads _) (pure_reads _ _)))
  exact ⟨_, operand_reads_path start noKeyword found⟩

theorem added_repeat (count : Nat) : ∃ others : List (BinaryOp × Operand),
    Repeats (do
      let op ← Grammar.operator
      let next ← Grammar.operandOf operand phrase
      pure (op, next)) (lexemesOf .blank (addedWords count ++ [";"])) others (lexemesOf .blank [";"]) ∧
    others.map Prod.fst = List.replicate count .add ∧
    ∀ other ∈ others, ∃ extent, other.2 = .path extent "a" := by
  induction count with
  | zero =>
      have ends : Grammar.operator.Misses (lexemesOf .blank [";"]) :=
        operator_misses (semicolon_ends_phrase []).1
      exact ⟨[], .stop (bind_misses _ ends), rfl, by simp⟩
  | succ count induction =>
      obtain ⟨others, repeated, signs, paths⟩ := induction
      obtain ⟨extent, found⟩ := sum_operand_reads operand phrase (addedWords count ++ [";"])
      have words : addedWords (count + 1) ++ [";"] = "+" :: ["a"] ++ (addedWords count ++ [";"]) := by
        simp [addedWords, List.replicate_succ]
      have plus : IsWord "+".toList := marks_word (by decide) (by decide)
      have shorter := lexemes_shorter plus .blank ["a"] (addedWords count ++ [";"])
      refine ⟨(.add, .path extent "a") :: others, ?_, ?_, ?_⟩
      · rw [words]
        exact .more (bind_reads (operator_reads .add .blank _) (bind_reads found (pure_reads _ _)))
          shorter repeated
      · rw [List.map_cons, signs, List.replicate_succ]
      · exact List.forall_mem_cons.mpr ⟨⟨extent, rfl⟩, paths⟩

/-- A sum is a chain of operands that do not nest. -/
theorem sum_chain_reads (count : Nat) : ∃ chain : Chain,
    (Grammar.chain (Grammar.operandOf operand phrase)).Reads
      (lexemesOf .blank ("a" :: (addedWords count ++ [";"]))) chain (lexemesOf .blank [";"]) ∧
    chain.Unbroken ∧ chain.height = 0 ∧ chain.toJoined.operators = List.replicate count .add := by
  obtain ⟨extent, first⟩ := sum_operand_reads operand phrase (addedWords count ++ [";"])
  obtain ⟨others, repeated, signs, paths⟩ := added_repeat operand phrase count
  refine ⟨Chain.ofList (.path extent "a") others,
    named_reads (bind_reads first (bind_reads (many_reads repeated) (pure_reads _ _))), ?_, ?_, ?_⟩
  · refine Chain.of_list_unbroken trivial ?_
    intro next member
    obtain ⟨place, same⟩ := paths next member
    rw [same]
    trivial
  · refine Chain.of_list_height rfl ?_
    intro next member
    obtain ⟨place, same⟩ := paths next member
    rw [same]
    rfl
  · rw [Chain.of_list_joined, Joined.operators, List.map_map, ← signs]
    rfl

end Sums

theorem sum_assignment_reads (count nesting : Nat) : ∃ chain : Chain,
    (Grammar.assignment (Grammar.level (nesting + 1))).Reads (lexemesOf .none (sumWords count))
      (.assignment "x" (.plain chain)) (lexemesOf .blank [";"]) ∧
    chain.Unbroken ∧ chain.height = 0 ∧ chain.toJoined.operators = List.replicate count .add := by
  have name : isName "x" = true := by decide +kernel
  obtain ⟨chain, found, flat⟩ := sum_chain_reads (Grammar.level nesting).operand
    (Grammar.level nesting).phrase count
  have noCondition : (Grammar.conditional (Grammar.level (nesting + 1)).operand
      (Grammar.level nesting).phrase).Misses (lexemesOf .blank [";"]) :=
    named_misses (bind_misses _ (keyword_misses (semicolon_ends_phrase []).2))
  have phrase : (Grammar.level (nesting + 1)).phrase.Reads
      (lexemesOf .blank ("a" :: (addedWords count ++ [";"]))) (.plain chain) (lexemesOf .blank [";"]) :=
    named_reads (bind_reads found (bind_reads (optional_reads_none noCondition) (pure_reads _ _)))
  have equals : (symbol '=').Reads (lexemesOf .blank ("=" :: "a" :: (addedWords count ++ [";"]))) ()
      (lexemesOf .blank ("a" :: (addedWords count ++ [";"]))) := mark_reads rfl rfl .blank _
  exact ⟨chain, named_reads (bind_reads (identifier_reads name .none _) (bind_reads equals
    (bind_reads phrase (pure_reads _ _)))), flat⟩

theorem sum_is_read (count : Nat) : ∃ (extent : Extent) (chain : Chain),
    (Grammar.read (scan (spaced (sumWords count)).toList).lexemes).outcome =
      some ([⟨extent, .assignment "x" (.plain chain)⟩], []) ∧
    chain.Unbroken ∧ chain.height = 0 ∧ chain.toJoined.operators = List.replicate count .add := by
  have words := sum_words count
  have name : isName "x" = true := by decide +kernel
  have visible : 0 < (lexemesOf .none (sumWords count)).length :=
    Nat.lt_of_lt_of_le (Nat.succ_pos _) (lexemes_length words .none)
  obtain ⟨first, noKeyword, start⟩ := name_first name .none ("=" :: "a" :: (addedWords count ++ [";"]))
  obtain ⟨chain, assignment, flat⟩ := sum_assignment_reads count (lexemesOf .none (sumWords count)).length
  have semicolon : (symbol ';').Reads (lexemesOf .blank [";"]) () [] := mark_reads rfl rfl .blank []
  have statement := form_reads_assignment start noKeyword assignment
  rw [spaced_lexemes words]
  exact ⟨_, chain, Grammar.read_some_iff.mpr ⟨rfl, .more (bind_reads (ahead_reads _)
    (bind_reads statement (bind_reads (ahead_reads _) (bind_reads semicolon (pure_reads _ _)))))
      visible (.stop (statement_misses_nothing _))⟩, flat⟩

/-- The limit 2 accepts it, and its tree has a level for every sign. -/
theorem sum_accepted (count : Nat) : ∃ statements, parse 2 (spaced (sumWords count)) = .ok statements ∧
    ∃ statement ∈ statements, ∃ expr ∈ statement.kind.expressions, count ≤ expr.height := by
  obtain ⟨extent, chain, read, unbroken, flat, signs⟩ := sum_is_read count
  have faultless : (StatementForm.assignment "x" (.plain chain)).faults 2 = [] := by
    rw [StatementForm.faults_nil_iff]
    refine ⟨unbroken, ?_⟩
    rw [StatementForm.height, Phrase.height, flat]
  refine ⟨_, parse_ok_iff.mpr ⟨_, read, List.forall_mem_singleton.mpr faultless, rfl⟩, _,
    List.mem_singleton_self _, Expr.ofChain chain.toJoined, List.mem_singleton_self _, ?_⟩
  have levels := sums_are_levels chain.toJoined
  have additive : (List.replicate count BinaryOp.add).filter Expr.isAdditive =
      List.replicate count .add := by
    simp [List.filter_replicate, Expr.isAdditive]
  rwa [signs, additive, List.length_replicate] at levels

/-- There is no bound on the height of trees for each limit: the limit 2 has none. -/
theorem trees_outgrow_the_limit :
    ¬∀ limit, ∃ bound, ∀ source statements, parse limit source = .ok statements →
      ∀ statement ∈ statements, ∀ expr ∈ statement.kind.expressions, expr.height ≤ bound := by
  intro bounded
  obtain ⟨bound, low⟩ := bounded 2
  obtain ⟨statements, parsed, statement, member, expr, inside, high⟩ := sum_accepted (bound + 1)
  have height := low _ statements parsed statement member expr inside
  omega

end Script

end PolicyLevers
