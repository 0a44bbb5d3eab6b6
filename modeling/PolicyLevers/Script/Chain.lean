import PolicyLevers.Script.Syntax

/-!
# Operator chains

A chain of operands joined by operators is read by precedence: powers bind tighter than products and
quotients, these tighter than sums and differences.  Powers group to the right, the others to the
left.
-/

namespace PolicyLevers.Script

set_option autoImplicit false

/-- Operands joined by operators, as written: the first one, then operators with theirs. -/
structure Joined (α : Type) where
  first : α
  others : List (BinaryOp × α)
  deriving Repr

namespace Joined

/-- Cuts a chain at the operators that `cuts` selects into a chain of chains. -/
def cutAt {α : Type} (cuts : BinaryOp → Bool) (first : α) : List (BinaryOp × α) → Joined (Joined α)
  | [] => ⟨⟨first, []⟩, []⟩
  | (op, operand) :: rest =>
    let ⟨head, tail⟩ := cutAt cuts operand rest
    if cuts op then ⟨⟨first, []⟩, (op, head) :: tail⟩
    else ⟨⟨first, (op, head.first) :: head.others⟩, tail⟩

def map {α β : Type} (change : α → β) (chain : Joined α) : Joined β :=
  ⟨change chain.first, chain.others.map (fun (op, operand) => (op, change operand))⟩

end Joined

namespace Expr

def groupLeft (chain : Joined Expr) : Expr :=
  chain.others.foldl (fun left (op, right) => .binary op left right) chain.first

def groupRight (first : Expr) : List (BinaryOp × Expr) → Expr
  | [] => first
  | (op, operand) :: rest => .binary op first (groupRight operand rest)

def isAdditive : BinaryOp → Bool
  | .add => true
  | .sub => true
  | _ => false

def isMultiplicative : BinaryOp → Bool
  | .mul => true
  | .div => true
  | _ => false

/-- Reads a chain that has no sums in it. -/
def ofProduct (chain : Joined Expr) : Expr :=
  groupLeft ((Joined.cutAt isMultiplicative chain.first chain.others).map
    (fun powers => groupRight powers.first powers.others))

def ofChain (chain : Joined Expr) : Expr :=
  groupLeft ((Joined.cutAt isAdditive chain.first chain.others).map ofProduct)

end Expr

end PolicyLevers.Script
