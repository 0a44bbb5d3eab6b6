import PolicyLevers.Script.Nesting
import PolicyLevers.Script.Tree

/-!
# Phrases with more tokens behind them

The places in a phrase count the tokens ahead, so with further tokens behind it they all grow by the same
number.  Nothing else about the phrase changes: not what it means, and not whether it has faults.
-/

namespace PolicyLevers.Script

set_option autoImplicit false

def Extent.move (count : Nat) (extent : Extent) : Extent :=
  { extent with ahead := extent.ahead + count, left := extent.left + count }

/-- A stretch that holds a token, lies among `count` tokens and has another token behind it. -/
structure Extent.Enclosed (count : Nat) (extent : Extent) : Prop where
  followed : 0 < extent.left
  visible : extent.left < extent.ahead
  inside : extent.ahead ≤ count

mutual

def Operand.move (count : Nat) : Operand → Operand
  | .number extent sign digits => .number (extent.move count) sign digits
  | .path extent text => .path (extent.move count) text
  | .lifecycle extent paths => .lifecycle (extent.move count) paths
  | .uniform extent low high => .uniform (extent.move count) (low.move count) (high.move count)
  | .normal extent mean deviation =>
    .normal (extent.move count) (mean.move count) (deviation.move count)
  | .repeated extent reducer times body =>
    .repeated (extent.move count) reducer (times.move count) (body.move count)
  | .group extent body => .group (extent.move count) (body.move count)

def Chain.move (count : Nat) : Chain → Chain
  | .last operand => .last (operand.move count)
  | .join operand op rest => .join (operand.move count) op (rest.move count)

def Phrase.move (count : Nat) : Phrase → Phrase
  | .plain value => .plain (value.move count)
  | .conditional value left test right alternative =>
    .conditional (value.move count) (left.move count) test (right.move count)
      (alternative.move count)

end

def StatementForm.move (count : Nat) : StatementForm → StatementForm
  | .definition name value => .definition name (value.move count)
  | .assignment target value => .assignment target (value.move count)
  | .limit target lower upper =>
    .limit target (lower.map (Phrase.move count)) (upper.map (Phrase.move count))
  | .distribute value targets split =>
    .distribute (value.move count)
      (targets.map (fun (place, weight) => (place, weight.map (Chain.move count)))) split
  | .change target delta start finish =>
    .change target (delta.move count) (start.move count) (finish.move count)
  | .inspect label value => .inspect label (value.move count)

def WrittenStatement.move (count : Nat) (written : WrittenStatement) : WrittenStatement :=
  ⟨written.extent.move count, written.form.move count⟩

/-! ## Extents -/

theorem Operand.extent_move (count : Nat) (operand : Operand) :
    (operand.move count).extent = operand.extent.move count := by
  cases operand <;> rfl

theorem Chain.final_move (count : Nat) (chain : Chain) :
    (chain.move count).final = chain.final.move count := by
  cases chain with
  | last operand => rfl
  | join operand op rest => exact Chain.final_move count rest

theorem Chain.extent_move (count : Nat) (chain : Chain) :
    (chain.move count).extent = chain.extent.move count := by
  cases chain with
  | last operand => simp [Chain.move, Chain.extent, Operand.extent_move, Extent.move]
  | join operand op rest =>
      simp [Chain.move, Chain.extent, Operand.extent_move, Chain.final_move, Extent.move]

theorem Phrase.extent_move (count : Nat) (phrase : Phrase) :
    (phrase.move count).extent = phrase.extent.move count := by
  cases phrase with
  | plain value => simp [Phrase.move, Phrase.extent, Chain.extent_move, Extent.move]
  | conditional value left test right alternative =>
      simp [Phrase.move, Phrase.extent, Chain.extent_move, Phrase.extent_move count alternative,
        Extent.move]

/-! ## Meaning -/

mutual

theorem Operand.to_expr_move (count : Nat) : ∀ operand : Operand,
    (operand.move count).toExpr = operand.toExpr
  | .number _ _ _ => rfl
  | .path _ _ => rfl
  | .lifecycle _ _ => rfl
  | .uniform _ low high => by
      simp only [Operand.move, Operand.toExpr, Chain.to_joined_move count low,
        Chain.to_joined_move count high]
  | .normal _ mean deviation => by
      simp only [Operand.move, Operand.toExpr, Chain.to_joined_move count mean,
        Chain.to_joined_move count deviation]
  | .repeated _ _ times body => by
      simp only [Operand.move, Operand.toExpr, Operand.to_expr_move count times,
        Phrase.to_expr_move count body]
  | .group _ body => Phrase.to_expr_move count body

theorem Chain.to_joined_move (count : Nat) : ∀ chain : Chain,
    (chain.move count).toJoined = chain.toJoined
  | .last operand => by
      simp only [Chain.move, Chain.toJoined, Operand.to_expr_move count operand]
  | .join operand _ rest => by
      simp only [Chain.move, Chain.toJoined, Operand.to_expr_move count operand,
        Chain.to_joined_move count rest]

theorem Phrase.to_expr_move (count : Nat) : ∀ phrase : Phrase,
    (phrase.move count).toExpr = phrase.toExpr
  | .plain value => by
      simp only [Phrase.move, Phrase.toExpr, Chain.to_joined_move count value]
  | .conditional value left _ right alternative => by
      simp only [Phrase.move, Phrase.toExpr, Chain.to_joined_move count value,
        Chain.to_joined_move count left, Chain.to_joined_move count right,
        Phrase.to_expr_move count alternative]

end

theorem Chain.to_expr_move (count : Nat) (chain : Chain) :
    (chain.move count).toExpr = chain.toExpr :=
  congrArg Expr.ofChain (Chain.to_joined_move count chain)

theorem StatementForm.to_kind_move (count : Nat) (form : StatementForm) :
    (form.move count).toKind = form.toKind := by
  cases form <;>
    simp [StatementForm.move, StatementForm.toKind, Phrase.to_expr_move, Chain.to_expr_move,
      Function.comp_def]

/-! ## Faults -/

def Fault.move (count : Nat) (fault : Fault) : Fault := { fault with extent := fault.extent.move count }

theorem within_move (limit depth count : Nat) (extent : Extent) (inner : List Fault) :
    within limit depth (extent.move count) (inner.map (Fault.move count)) =
      (within limit depth extent inner).map (Fault.move count) := by
  unfold within
  split <;> rfl

mutual

theorem Operand.faults_move (limit depth count : Nat) : ∀ operand : Operand,
    (operand.move count).faults limit depth = (operand.faults limit depth).map (Fault.move count)
  | .number extent sign digits => by
      simp only [Operand.move, Operand.faults, ← within_move]
      congr 1
      split <;> rfl
  | .path extent text => within_move limit depth count extent []
  | .lifecycle extent paths => within_move limit depth count extent []
  | .uniform extent low high => by
      simp only [Operand.move, Operand.faults, Chain.operand_faults_move limit _ count low,
        Chain.operand_faults_move limit _ count high, Chain.extent_move, within_move,
        ← List.map_append]
  | .normal extent mean deviation => by
      simp only [Operand.move, Operand.faults, Chain.operand_faults_move limit _ count mean,
        Chain.operand_faults_move limit _ count deviation, Chain.extent_move, within_move,
        ← List.map_append]
  | .repeated extent reducer times body => by
      simp only [Operand.move, Operand.faults, Operand.faults_move limit _ count times,
        Phrase.faults_move limit _ count body, within_move, ← List.map_append]
  | .group extent body => by
      simp only [Operand.move, Operand.faults, Phrase.faults_move limit _ count body, within_move]

theorem Chain.operand_faults_move (limit depth count : Nat) : ∀ chain : Chain,
    (chain.move count).operandFaults limit depth =
      (chain.operandFaults limit depth).map (Fault.move count)
  | .last operand => Operand.faults_move limit depth count operand
  | .join operand op rest => by
      simp only [Chain.move, Chain.operandFaults, Operand.faults_move limit depth count operand,
        Chain.operand_faults_move limit depth count rest, List.map_append]

theorem Phrase.faults_move (limit depth count : Nat) : ∀ phrase : Phrase,
    (phrase.move count).faults limit depth = (phrase.faults limit depth).map (Fault.move count)
  | .plain value => by
      have place := Phrase.extent_move count (.plain value)
      simp only [Phrase.move] at place
      simp only [Phrase.move, Phrase.faults, Chain.operand_faults_move limit _ count value,
        Chain.extent_move, place, within_move]
  | .conditional value left test right alternative => by
      have place := Phrase.extent_move count (.conditional value left test right alternative)
      simp only [Phrase.move] at place
      simp only [Phrase.move, Phrase.faults, Chain.operand_faults_move limit _ count value,
        Chain.operand_faults_move limit _ count left, Chain.operand_faults_move limit _ count right,
        Phrase.faults_move limit _ count alternative, Chain.extent_move, place, within_move,
        ← List.map_append]

end

theorem Chain.faults_move (limit depth count : Nat) (chain : Chain) :
    (chain.move count).faults limit depth = (chain.faults limit depth).map (Fault.move count) := by
  simp only [Chain.faults, Chain.operand_faults_move, Chain.extent_move, within_move]

/-- The faults of a statement are the same wherever it stands. -/
theorem StatementForm.faults_move (limit count : Nat) (form : StatementForm) :
    (form.move count).faults limit = (form.faults limit).map (Fault.move count) := by
  have phrases : ∀ bound : Option Phrase, (bound.map (Phrase.move count)).toList.flatMap
      (Phrase.faults limit 0) =
        (bound.toList.flatMap (Phrase.faults limit 0)).map (Fault.move count) := by
    intro bound
    cases bound with
    | none => rfl
    | some phrase => simp [Phrase.faults_move]
  have weights : ∀ weight : Option Chain, (weight.map (Chain.move count)).toList.flatMap
      (Chain.faults limit 0) =
        (weight.toList.flatMap (Chain.faults limit 0)).map (Fault.move count) := by
    intro weight
    cases weight with
    | none => rfl
    | some chain => simp [Chain.faults_move]
  cases form with
  | definition name value => exact Phrase.faults_move limit 0 count value
  | assignment target value => exact Phrase.faults_move limit 0 count value
  | limit target lower upper =>
      simp only [StatementForm.move, StatementForm.faults, phrases, List.map_append]
  | distribute value targets split =>
      simp only [StatementForm.move, StatementForm.faults, Phrase.faults_move, List.map_append,
        List.flatMap_map, List.map_flatMap, weights]
  | change target delta start finish =>
      simp only [StatementForm.move, StatementForm.faults, Chain.faults_move, List.map_append]
  | inspect label value => exact Phrase.faults_move limit 0 count value

/-! ## Nothing behind -/

mutual

theorem Operand.move_zero : ∀ operand : Operand, operand.move 0 = operand
  | .number _ _ _ => rfl
  | .path _ _ => rfl
  | .lifecycle _ _ => rfl
  | .uniform _ low high => by
      simp only [Operand.move, Chain.move_zero low, Chain.move_zero high]
      rfl
  | .normal _ mean deviation => by
      simp only [Operand.move, Chain.move_zero mean, Chain.move_zero deviation]
      rfl
  | .repeated _ _ times body => by
      simp only [Operand.move, Operand.move_zero times, Phrase.move_zero body]
      rfl
  | .group _ body => by
      simp only [Operand.move, Phrase.move_zero body]
      rfl

theorem Chain.move_zero : ∀ chain : Chain, chain.move 0 = chain
  | .last operand => by
      simp only [Chain.move, Operand.move_zero operand]
  | .join operand _ rest => by
      simp only [Chain.move, Operand.move_zero operand, Chain.move_zero rest]

theorem Phrase.move_zero : ∀ phrase : Phrase, phrase.move 0 = phrase
  | .plain value => by
      simp only [Phrase.move, Chain.move_zero value]
  | .conditional value left _ right alternative => by
      simp only [Phrase.move, Chain.move_zero value, Chain.move_zero left, Chain.move_zero right,
        Phrase.move_zero alternative]

end

theorem StatementForm.move_zero (form : StatementForm) : form.move 0 = form := by
  have phrases : Phrase.move 0 = id := funext Phrase.move_zero
  have chains : Chain.move 0 = id := funext Chain.move_zero
  cases form <;> simp [StatementForm.move, phrases, chains]

theorem WrittenStatement.move_zero (written : WrittenStatement) : written.move 0 = written := by
  unfold WrittenStatement.move
  rw [StatementForm.move_zero]
  rfl

end PolicyLevers.Script
