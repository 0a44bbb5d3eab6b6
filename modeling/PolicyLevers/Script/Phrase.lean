import PolicyLevers.Script.Location
import PolicyLevers.Script.Syntax

/-!
# Phrases

What the grammar finds: expressions as they are written, with the stretch of tokens each operand
covers, before precedence is applied and nesting is checked.
-/

namespace PolicyLevers.Script

set_option autoImplicit false

mutual

inductive Operand where
  /-- A number: its sign with the gap behind it, and its digits. -/
  | number (extent : Extent) (sign : Option (Char × Gap)) (digits : List Char)
  | path (extent : Extent) (text : String)
  | lifecycle (extent : Extent) (paths : List String)
  | uniform (extent : Extent) (low high : Chain)
  | normal (extent : Extent) (mean deviation : Chain)
  | repeated (extent : Extent) (reducer : Reducer) (count : Operand) (body : Phrase)
  | group (extent : Extent) (body : Phrase)

inductive Chain where
  | last (operand : Operand)
  | join (operand : Operand) (op : BinaryOp) (rest : Chain)

/-- A chain, perhaps with a condition and an alternative. -/
inductive Phrase where
  | plain (value : Chain)
  | conditional (value left : Chain) (test : Comparison) (right : Chain) (alternative : Phrase)

end

def Operand.extent : Operand → Extent
  | .number extent _ _ => extent
  | .path extent _ => extent
  | .lifecycle extent _ => extent
  | .uniform extent _ _ => extent
  | .normal extent _ _ => extent
  | .repeated extent _ _ _ => extent
  | .group extent _ => extent

namespace Chain

def ofList (operand : Operand) : List (BinaryOp × Operand) → Chain
  | [] => .last operand
  | (op, next) :: rest => .join operand op (ofList next rest)

def first : Chain → Operand
  | .last operand => operand
  | .join operand _ _ => operand

def final : Chain → Operand
  | .last operand => operand
  | .join _ _ rest => rest.final

/-- The tokens of a chain.  A single operand takes the blanks behind it along, for an operator was
looked for there. -/
def extent : Chain → Extent
  | .last operand => { operand.extent with spaced := true }
  | .join operand _ rest =>
    ⟨operand.extent.ahead, rest.final.extent.left, rest.final.extent.spaced⟩

end Chain

def Phrase.extent : Phrase → Extent
  | .plain value => { value.extent with spaced := true }
  | .conditional value _ _ _ alternative =>
    ⟨value.extent.ahead, alternative.extent.left, true⟩

inductive StatementForm where
  | definition (name : String) (value : Phrase)
  | assignment (target : String) (value : Phrase)
  | limit (target : String) (lower upper : Option Phrase)
  | distribute (value : Phrase) (targets : List (String × Option Chain)) (split : Split)
  | change (target : String) (delta start finish : Chain)
  | inspect (label : String) (value : Phrase)

structure WrittenStatement where
  extent : Extent
  form : StatementForm

end PolicyLevers.Script
