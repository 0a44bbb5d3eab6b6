/-!
# Syntax trees of scripts

What a script says, free of how it was written: statements over dotted paths and numeric expressions.
-/

namespace PolicyLevers.Script

set_option autoImplicit false

inductive BinaryOp where
  | add
  | sub
  | mul
  | div
  | pow
  deriving DecidableEq, Repr

/-- Division by zero and other edges follow the arithmetic of doubles. -/
def BinaryOp.apply : BinaryOp → Float → Float → Float
  | add, left, right => left + right
  | sub, left, right => left - right
  | mul, left, right => left * right
  | div, left, right => left / right
  | pow, left, right => Float.pow left right

inductive Comparison where
  | eq
  | neq
  | lt
  | gt
  | lte
  | gte
  deriving DecidableEq, Repr

def Comparison.holds : Comparison → Float → Float → Bool
  | eq, left, right => left == right
  | neq, left, right => left != right
  | lt, left, right => left < right
  | gt, left, right => left > right
  | lte, left, right => left ≤ right
  | gte, left, right => left ≥ right

inductive Reducer where
  | sum
  | product
  | average
  deriving DecidableEq, Repr

inductive Split where
  | proportional
  | linear
  deriving DecidableEq, Repr

inductive Expr where
  | number (value : Float)
  | path (text : String)
  | binary (op : BinaryOp) (left right : Expr)
  /-- `consequent if left test right else alternative` -/
  | conditional (test : Comparison) (left right consequent alternative : Expr)
  | lifecycle (paths : List String)
  | uniform (low high : Expr)
  | normal (mean deviation : Expr)
  | repeated (reducer : Reducer) (count body : Expr)
  deriving DecidableEq

structure Target where
  path : String
  /-- The current value if there is none. -/
  weight : Option Expr
  deriving DecidableEq

inductive StatementKind where
  /-- `var name = value;` -/
  | definition (name : String) (value : Expr)
  /-- `target = value;` -/
  | assignment (target : String) (value : Expr)
  /-- `limit target to [lower, upper];` -/
  | limit (target : String) (lower upper : Option Expr)
  /-- `distribute value across [targets] proportionally;` or `linearly;` -/
  | distribute (value : Expr) (targets : List Target) (split : Split)
  /-- `change target by delta over start to finish;` -/
  | change (target : String) (delta start finish : Expr)
  /-- `inspect value;` with the source text of the expression, free of blanks and comments. -/
  | inspect (label : String) (value : Expr)
  deriving DecidableEq

end PolicyLevers.Script
