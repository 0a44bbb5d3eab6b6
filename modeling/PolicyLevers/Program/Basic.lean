import PolicyLevers.Script.Syntax
import PolicyLevers.Ledger.Path

/-!
# Programs

What a script compiles to: the same statements and expressions with every identifier split into a path
and every lifetime query classified.  Nothing here depends on the contents of a state.
-/

namespace PolicyLevers

set_option autoImplicit false

/-- A query for the lifetime shared by the attributes at some paths. -/
inductive Lifecycle where
  /-- Only waste: the lifetime is the input at the path. -/
  | endOfLife (delay : Path)
  /-- Only consumption: each ledger path with the input that holds its lifetime. -/
  | consumption (pairs : List (Path × Path))
  /-- Waste and consumption, which fails when evaluated. -/
  | mixed
  | unknown (path : String)
  deriving DecidableEq

inductive Expression where
  | number (value : Float)
  | read (path : Path)
  | binary (op : Script.BinaryOp) (left right : Expression)
  /-- `consequent if left test right else alternative` -/
  | conditional (test : Script.Comparison) (left right consequent alternative : Expression)
  | lifecycle (query : Lifecycle)
  | uniform (low high : Expression)
  | normal (mean deviation : Expression)
  | repeated (reducer : Script.Reducer) (count body : Expression)
  deriving DecidableEq

inductive Instruction where
  | define (name : String) (value : Expression)
  | assign (target : Path) (value : Expression)
  | limit (target : Path) (lower upper : Option Expression)
  | distribute (value : Expression) (targets : List (Path × Option Expression)) (split : Script.Split)
  | change (target : Path) (delta start finish : Expression)
  | inspect (label : String) (value : Expression)
  deriving DecidableEq

structure Program where
  instructions : List Instruction
  /-- The largest count that a repeated expression may evaluate to. -/
  repeatLimit : Nat
  deriving DecidableEq

def Program.size (program : Program) : Nat := program.instructions.length

end PolicyLevers
