import PolicyLevers.Script.Phrase

/-!
# Faults inside phrases

The grammar accepts some phrases that are no expressions: those that nest too deeply, and numbers with
a comment between sign and digits.  `faults` lists them from left to right.  Every phrase, chain and
operand counts as a level of nesting, a statement's own expression as level zero, and what lies inside
a part that is too deep is not looked at.
-/

namespace PolicyLevers.Script

set_option autoImplicit false

inductive FaultKind where
  | tooDeep (limit : Nat)
  /-- A comment separates the sign of a number from its digits. -/
  | brokenNumber
  deriving DecidableEq, Repr

structure Fault where
  extent : Extent
  kind : FaultKind
  deriving DecidableEq, Repr

def within (limit depth : Nat) (extent : Extent) (inner : List Fault) : List Fault :=
  if depth > limit then [⟨extent, .tooDeep limit⟩] else inner

mutual

def Operand.faults (limit depth : Nat) : Operand → List Fault
  | .number extent sign _ =>
    within limit depth extent
      (if sign.any (fun (_, gap) => gap = .comment) then [⟨extent, .brokenNumber⟩] else [])
  | .path extent _ => within limit depth extent []
  | .lifecycle extent _ => within limit depth extent []
  | .uniform extent low high =>
    within limit depth extent
      (within limit (depth + 1) low.extent (low.operandFaults limit (depth + 2)) ++
        within limit (depth + 1) high.extent (high.operandFaults limit (depth + 2)))
  | .normal extent mean deviation =>
    within limit depth extent
      (within limit (depth + 1) mean.extent (mean.operandFaults limit (depth + 2)) ++
        within limit (depth + 1) deviation.extent (deviation.operandFaults limit (depth + 2)))
  | .repeated extent _ count body =>
    within limit depth extent
      (count.faults limit (depth + 1) ++ body.faults limit (depth + 1))
  | .group extent body => within limit depth extent (body.faults limit (depth + 1))

def Chain.operandFaults (limit depth : Nat) : Chain → List Fault
  | .last operand => operand.faults limit depth
  | .join operand _ rest => operand.faults limit depth ++ rest.operandFaults limit depth

def Phrase.faults (limit depth : Nat) : Phrase → List Fault
  | .plain value =>
    within limit depth (Phrase.plain value).extent
      (within limit (depth + 1) value.extent (value.operandFaults limit (depth + 2)))
  | .conditional value left test right alternative =>
    within limit depth (Phrase.conditional value left test right alternative).extent
      (within limit (depth + 1) value.extent (value.operandFaults limit (depth + 2)) ++
        (within limit (depth + 2) left.extent (left.operandFaults limit (depth + 3)) ++
          (within limit (depth + 2) right.extent (right.operandFaults limit (depth + 3)) ++
            alternative.faults limit (depth + 1))))

end

def Chain.faults (limit depth : Nat) (chain : Chain) : List Fault :=
  within limit depth chain.extent (chain.operandFaults limit (depth + 1))

def StatementForm.faults (limit : Nat) : StatementForm → List Fault
  | .definition _ value => value.faults limit 0
  | .assignment _ value => value.faults limit 0
  | .limit _ lower upper =>
    lower.toList.flatMap (Phrase.faults limit 0) ++ upper.toList.flatMap (Phrase.faults limit 0)
  | .distribute value targets _ =>
    value.faults limit 0 ++
      targets.flatMap (fun (_, weight) => weight.toList.flatMap (Chain.faults limit 0))
  | .change _ delta start finish =>
    delta.faults limit 0 ++ (start.faults limit 0 ++ finish.faults limit 0)
  | .inspect _ value => value.faults limit 0

end PolicyLevers.Script
