import PolicyLevers.Script.Nesting

/-!
# The height of phrases

The least nesting limit under which a phrase has no faults.  The height of a part is how many levels
below it its deepest operand stands, so a part at some depth is free of faults exactly when no comment
breaks a number in it and its depth and height together stay within the limit.
-/

namespace PolicyLevers.Script

set_option autoImplicit false

mutual

def Operand.height : Operand → Nat
  | .number _ _ _ => 0
  | .path _ _ => 0
  | .lifecycle _ _ => 0
  | .uniform _ low high => max low.height high.height + 2
  | .normal _ mean deviation => max mean.height deviation.height + 2
  | .repeated _ _ count body => max count.height body.height + 1
  | .group _ body => body.height + 1

def Chain.height : Chain → Nat
  | .last operand => operand.height
  | .join operand _ rest => max operand.height rest.height

def Phrase.height : Phrase → Nat
  | .plain value => value.height + 2
  | .conditional value left _ right alternative =>
    max (max (value.height + 2) (alternative.height + 1)) (max left.height right.height + 3)

end

mutual

/-- No comment stands between the sign and the digits of a number. -/
def Operand.Unbroken : Operand → Prop
  | .number _ sign _ => ∀ mark ∈ sign, mark.2 ≠ .comment
  | .path _ _ => True
  | .lifecycle _ _ => True
  | .uniform _ low high => low.Unbroken ∧ high.Unbroken
  | .normal _ mean deviation => mean.Unbroken ∧ deviation.Unbroken
  | .repeated _ _ count body => count.Unbroken ∧ body.Unbroken
  | .group _ body => body.Unbroken

def Chain.Unbroken : Chain → Prop
  | .last operand => operand.Unbroken
  | .join operand _ rest => operand.Unbroken ∧ rest.Unbroken

def Phrase.Unbroken : Phrase → Prop
  | .plain value => value.Unbroken
  | .conditional value left _ right alternative =>
    value.Unbroken ∧ left.Unbroken ∧ right.Unbroken ∧ alternative.Unbroken

end

theorem within_nil_iff {limit depth : Nat} {extent : Extent} {inner : List Fault} :
    within limit depth extent inner = [] ↔ depth ≤ limit ∧ inner = [] := by
  unfold within
  split
  · simp
    omega
  · simp
    omega

mutual

theorem Operand.faults_nil_iff (limit depth : Nat) : ∀ operand : Operand,
    operand.faults limit depth = [] ↔ operand.Unbroken ∧ depth + operand.height ≤ limit
  | .number extent sign digits => by
      cases sign <;> simp [Operand.faults, Operand.Unbroken, Operand.height, within_nil_iff, and_comm]
  | .path extent text => by
      simp [Operand.faults, Operand.Unbroken, Operand.height, within_nil_iff]
  | .lifecycle extent paths => by
      simp [Operand.faults, Operand.Unbroken, Operand.height, within_nil_iff]
  | .uniform extent low high => by
      have lows := Chain.operand_faults_nil_iff limit (depth + 2) low
      have highs := Chain.operand_faults_nil_iff limit (depth + 2) high
      simp only [Operand.faults, Operand.Unbroken, Operand.height, within_nil_iff,
        List.append_eq_nil_iff, lows, highs]
      grind
  | .normal extent mean deviation => by
      have means := Chain.operand_faults_nil_iff limit (depth + 2) mean
      have deviations := Chain.operand_faults_nil_iff limit (depth + 2) deviation
      simp only [Operand.faults, Operand.Unbroken, Operand.height, within_nil_iff,
        List.append_eq_nil_iff, means, deviations]
      grind
  | .repeated extent reducer count body => by
      have counts := Operand.faults_nil_iff limit (depth + 1) count
      have bodies := Phrase.faults_nil_iff limit (depth + 1) body
      simp only [Operand.faults, Operand.Unbroken, Operand.height, within_nil_iff,
        List.append_eq_nil_iff, counts, bodies]
      grind
  | .group extent body => by
      have bodies := Phrase.faults_nil_iff limit (depth + 1) body
      simp only [Operand.faults, Operand.Unbroken, Operand.height, within_nil_iff, bodies]
      grind

theorem Chain.operand_faults_nil_iff (limit depth : Nat) : ∀ chain : Chain,
    chain.operandFaults limit depth = [] ↔ chain.Unbroken ∧ depth + chain.height ≤ limit
  | .last operand => by
      have operands := Operand.faults_nil_iff limit depth operand
      simp only [Chain.operandFaults, Chain.Unbroken, Chain.height, operands]
  | .join operand op rest => by
      have operands := Operand.faults_nil_iff limit depth operand
      have others := Chain.operand_faults_nil_iff limit depth rest
      simp only [Chain.operandFaults, Chain.Unbroken, Chain.height, List.append_eq_nil_iff, operands,
        others]
      grind

theorem Phrase.faults_nil_iff (limit depth : Nat) : ∀ phrase : Phrase,
    phrase.faults limit depth = [] ↔ phrase.Unbroken ∧ depth + phrase.height ≤ limit
  | .plain value => by
      have values := Chain.operand_faults_nil_iff limit (depth + 2) value
      simp only [Phrase.faults, Phrase.Unbroken, Phrase.height, within_nil_iff, values]
      grind
  | .conditional value left test right alternative => by
      have values := Chain.operand_faults_nil_iff limit (depth + 2) value
      have lefts := Chain.operand_faults_nil_iff limit (depth + 3) left
      have rights := Chain.operand_faults_nil_iff limit (depth + 3) right
      have alternatives := Phrase.faults_nil_iff limit (depth + 1) alternative
      simp only [Phrase.faults, Phrase.Unbroken, Phrase.height, within_nil_iff,
        List.append_eq_nil_iff, values, lefts, rights, alternatives]
      grind

end

theorem Chain.faults_nil_iff (limit depth : Nat) (chain : Chain) :
    chain.faults limit depth = [] ↔ chain.Unbroken ∧ depth + (chain.height + 1) ≤ limit := by
  have operands := Chain.operand_faults_nil_iff limit (depth + 1) chain
  simp only [Chain.faults, within_nil_iff, operands]
  grind

def StatementForm.height : StatementForm → Nat
  | .definition _ value => value.height
  | .assignment _ value => value.height
  | .limit _ lower upper =>
    max ((lower.map Phrase.height).getD 0) ((upper.map Phrase.height).getD 0)
  | .distribute value targets _ =>
    targets.foldr (fun target rest => max ((target.2.map (fun weight => weight.height + 1)).getD 0) rest)
      value.height
  | .change _ delta start finish => max delta.height (max start.height finish.height) + 1
  | .inspect _ value => value.height

def StatementForm.Unbroken : StatementForm → Prop
  | .definition _ value => value.Unbroken
  | .assignment _ value => value.Unbroken
  | .limit _ lower upper => (∀ bound ∈ lower, bound.Unbroken) ∧ ∀ bound ∈ upper, bound.Unbroken
  | .distribute value targets _ =>
    value.Unbroken ∧ ∀ target ∈ targets, ∀ weight ∈ target.2, weight.Unbroken
  | .change _ delta start finish => delta.Unbroken ∧ start.Unbroken ∧ finish.Unbroken
  | .inspect _ value => value.Unbroken

theorem bound_faults_nil_iff (limit : Nat) (bound : Option Phrase) :
    bound.toList.flatMap (Phrase.faults limit 0) = [] ↔
      (∀ phrase ∈ bound, phrase.Unbroken) ∧ (bound.map Phrase.height).getD 0 ≤ limit := by
  cases bound with
  | none => simp
  | some phrase => simp [Phrase.faults_nil_iff]

theorem weight_faults_nil_iff (limit base : Nat) (targets : List (String × Option Chain)) :
    (base ≤ limit ∧
      targets.flatMap (fun (_, weight) => weight.toList.flatMap (Chain.faults limit 0)) = []) ↔
      (∀ target ∈ targets, ∀ weight ∈ target.2, weight.Unbroken) ∧
        targets.foldr (fun target rest =>
          max ((target.2.map (fun weight => weight.height + 1)).getD 0) rest) base ≤ limit := by
  induction targets with
  | nil => simp
  | cons target targets induction =>
      obtain ⟨place, weight⟩ := target
      cases weight with
      | none => simpa using induction
      | some weight =>
          have own := Chain.faults_nil_iff limit 0 weight
          simp only [List.flatMap_cons, Option.toList_some, List.flatMap_nil, List.append_nil,
            List.append_eq_nil_iff, own, List.foldr_cons, Option.map_some, Option.getD_some,
            List.forall_mem_cons, Option.mem_some_iff]
          grind

/-- A statement has no faults when no comment breaks a number and the limit reaches its height. -/
theorem StatementForm.faults_nil_iff (limit : Nat) (form : StatementForm) :
    form.faults limit = [] ↔ form.Unbroken ∧ form.height ≤ limit := by
  cases form with
  | definition name value =>
      simpa [faults, Unbroken, height] using Phrase.faults_nil_iff limit 0 value
  | assignment target value =>
      simpa [faults, Unbroken, height] using Phrase.faults_nil_iff limit 0 value
  | limit target lower upper =>
      simp only [faults, Unbroken, height, List.append_eq_nil_iff, bound_faults_nil_iff]
      grind
  | distribute value targets split =>
      have values := Phrase.faults_nil_iff limit 0 value
      have weights := weight_faults_nil_iff limit value.height targets
      simp only [faults, Unbroken, height, List.append_eq_nil_iff, values]
      grind
  | change target delta start finish =>
      simp only [faults, Unbroken, height, List.append_eq_nil_iff, Chain.faults_nil_iff]
      grind
  | inspect label value =>
      simpa [faults, Unbroken, height] using Phrase.faults_nil_iff limit 0 value

end PolicyLevers.Script
