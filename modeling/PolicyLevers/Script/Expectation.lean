import PolicyLevers.Script.Syntax

/-!
# What a script could have said instead

A syntax error is worded by what the grammar would have accepted at the furthest place it reached.
The parts of the grammar are grouped into concepts that a writer of scripts knows.
-/

namespace PolicyLevers.Script

set_option autoImplicit false

inductive Expectation where
  | endOfInput
  | keyword (spelling : String)
  | identifier
  | sign
  | digits
  | number
  | operator (op : BinaryOp)
  | comparison (test : Comparison)
  | expression
  | conditional
  | condition
  | arithmetic
  | group
  | lifecycle
  | uniformDraw
  | normalDraw
  | repetition
  | definition
  | assignment
  | lowerBound
  | upperBound
  | limit
  | weight
  | target
  | distribution
  | change
  | inspection
  | script
  deriving DecidableEq, Repr

namespace Expectation

/-- The parts of the grammar in the order in which messages list them. -/
def order : List Expectation :=
  [endOfInput] ++
  ["var", "limit", "to", "distribute", "across", "by", "lifecycle", "of", "change", "over", "draw",
    "uniformly", "normally", "from", "mean", "std", "repeats", "inspect", "if", "else"].map keyword ++
  [identifier, sign, digits, number] ++
  [BinaryOp.add, .sub, .mul, .div, .pow].map operator ++
  [Comparison.eq, .neq, .lte, .gte, .lt, .gt].map comparison ++
  [expression, conditional, condition, arithmetic, group, lifecycle, uniformDraw, normalDraw,
    keyword "sum", keyword "product", keyword "average", repetition, definition, assignment,
    lowerBound, upperBound, limit, keyword "proportionally", keyword "linearly", weight, target,
    distribution, change, inspection, script]

def rank (expectation : Expectation) : Nat := order.idxOf expectation

def concept : Expectation → String
  | endOfInput => "end of input"
  | keyword spelling =>
    if ["if", "else", "to", "of", "by", "over", "across"].contains spelling then spelling
    else if ["proportionally", "linearly"].contains spelling then "proportionally or linearly"
    else "expression"
  | identifier => "identifier"
  | sign | digits | number => "number"
  | operator _ => "operator"
  | comparison _ => "comparison"
  | definition | assignment | limit | distribution | change | inspection => "statement"
  | target => "distribution target"
  | expression | conditional | condition | arithmetic | group | lifecycle | uniformDraw
  | normalDraw | repetition | lowerBound | upperBound | weight | script => "expression"

end Expectation

def joinAlternatives : List String → String
  | [] => "something else"
  | [only] => only
  | several => String.intercalate ", " several.dropLast ++ " or " ++ several.getLastD ""

/-- The concepts of what was looked for, each once, in the order of the grammar. -/
def concepts (expected : List Expectation) : List String :=
  ((expected.mergeSort (fun left right => left.rank ≤ right.rank)).map Expectation.concept).eraseDups

def expectedMessage (expected : List Expectation) : String :=
  "expected " ++ joinAlternatives (concepts expected)

end PolicyLevers.Script
