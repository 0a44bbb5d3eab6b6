import PolicyLevers.Proofs.ScannedWords
import PolicyLevers.Script.Grammar
import PolicyLevers.Script.Tree

/-!
# Printed scripts

How statements are written down as words with blanks between them.  An expression with parts that are
expressions stands in parentheses wherever it is itself a part; numbers are written as a given function
spells them.  The grammar can only read back what can be written in it, so names, lists and literals
have to be well formed.
-/

namespace PolicyLevers.Script

set_option autoImplicit false

/-! ## Words of the language -/

def BinaryOp.word : BinaryOp → String
  | add => "+"
  | sub => "-"
  | mul => "*"
  | div => "/"
  | pow => "^"

def Comparison.word : Comparison → String
  | eq => "=="
  | neq => "!="
  | lt => "<"
  | gt => ">"
  | lte => "<="
  | gte => ">="

def Reducer.word : Reducer → String
  | sum => "sum"
  | product => "product"
  | average => "average"

def Split.word : Split → String
  | proportional => "proportionally"
  | linear => "linearly"

def listed (items : List (List String)) : List String := [","].intercalate items

/-! ## Expressions -/

namespace Expr

def isCompound : Expr → Bool
  | number _ => false
  | path _ => false
  | lifecycle _ => false
  | _ => true

def enclosed (expr : Expr) (words : List String) : List String :=
  if expr.isCompound then ["("] ++ words ++ [")"] else words

def words (literal : Float → String) : Expr → List String
  | number value => [literal value]
  | path text => [text]
  | binary op left right =>
    left.enclosed (left.words literal) ++ [op.word] ++ right.enclosed (right.words literal)
  | conditional test left right consequent alternative =>
    consequent.enclosed (consequent.words literal) ++ ["if"] ++
      left.enclosed (left.words literal) ++ [test.word] ++ right.enclosed (right.words literal) ++
      ["else"] ++ alternative.enclosed (alternative.words literal)
  | lifecycle paths => ["lifecycle", "of", "["] ++ listed (paths.map (fun path => [path])) ++ ["]"]
  | uniform low high =>
    ["draw", "uniformly", "from"] ++ low.enclosed (low.words literal) ++ ["to"] ++
      high.enclosed (high.words literal)
  | normal mean deviation =>
    ["draw", "normally", "from", "mean", "of"] ++ mean.enclosed (mean.words literal) ++
      ["std", "of"] ++ deviation.enclosed (deviation.words literal)
  | repeated reducer count body =>
    [reducer.word] ++ count.enclosed (count.words literal) ++ ["repeats", "of"] ++
      body.enclosed (body.words literal)

def partWords (literal : Float → String) (expr : Expr) : List String :=
  expr.enclosed (expr.words literal)

end Expr

/-! ## Statements -/

def Target.words (literal : Float → String) (target : Target) : List String :=
  match target.weight with
  | none => [target.path]
  | some weight => [target.path, "by"] ++ weight.partWords literal

namespace StatementKind

def words (literal : Float → String) : StatementKind → List String
  | definition name value => ["var", name, "="] ++ value.words literal ++ [";"]
  | assignment target value => [target, "="] ++ value.words literal ++ [";"]
  | limit target lower upper =>
    ["limit", target, "to", "["] ++ lower.toList.flatMap (Expr.words literal) ++ [","] ++
      upper.toList.flatMap (Expr.words literal) ++ ["]", ";"]
  | distribute value targets split =>
    ["distribute"] ++ value.words literal ++ ["across", "["] ++
      listed (targets.map (Target.words literal)) ++ ["]", split.word, ";"]
  | change target delta start finish =>
    ["change", target, "by"] ++ delta.partWords literal ++ ["over"] ++ start.partWords literal ++
      ["to"] ++ finish.partWords literal ++ [";"]
  | inspect _ value => ["inspect"] ++ value.words literal ++ [";"]

end StatementKind

def spaced (words : List String) : String := " ".intercalate words

def printed (literal : Float → String) (script : List StatementKind) : String :=
  spaced (script.flatMap (StatementKind.words literal))

def Expr.label (literal : Float → String) (value : Expr) : String :=
  String.ofList ((spaced (value.words literal)).toList.filter (fun c => !isSpace c))

def StatementKind.labelled (literal : Float → String) : StatementKind → StatementKind
  | inspect _ value => .inspect (value.label literal) value
  | other => other

/-! ## What can be written -/

/-- A dotted name: words of letters, digits and underscores that start with no digit, the first of
them no keyword. -/
def isName (name : String) : Bool :=
  let (first, others) := Text.splitAt '.' name.toList
  isSegment first && !Grammar.keywords.contains (String.ofList first) && others.all isSegment

/-- A decimal number with at most one sign in front that reads as the given double. -/
def IsLiteral (text : String) (value : Float) : Prop :=
  (Decimal.readMagnitude (Decimal.splitSign text.toList).2).isSome ∧
    Decimal.readFloat text.toList = some value

/-- Names are dotted names, lists are not empty, and every number reads back from its literal. -/
def Expr.Printable (literal : Float → String) : Expr → Prop
  | number value => IsLiteral (literal value) value
  | path text => isName text
  | binary _ left right => left.Printable literal ∧ right.Printable literal
  | conditional _ left right consequent alternative =>
    left.Printable literal ∧ right.Printable literal ∧ consequent.Printable literal ∧
      alternative.Printable literal
  | lifecycle paths => paths ≠ [] ∧ ∀ path ∈ paths, isName path
  | uniform low high => low.Printable literal ∧ high.Printable literal
  | normal mean deviation => mean.Printable literal ∧ deviation.Printable literal
  | repeated _ count body => count.Printable literal ∧ body.Printable literal

def Target.Printable (literal : Float → String) (target : Target) : Prop :=
  isName target.path ∧ ∀ weight ∈ target.weight, weight.Printable literal

def StatementKind.Printable (literal : Float → String) : StatementKind → Prop
  | definition name value => isName name ∧ value.Printable literal
  | assignment target value => isName target ∧ value.Printable literal
  | limit target lower upper =>
    isName target ∧ (∀ bound ∈ lower, bound.Printable literal) ∧
      ∀ bound ∈ upper, bound.Printable literal
  | distribute value targets _ =>
    value.Printable literal ∧ targets ≠ [] ∧ ∀ target ∈ targets, target.Printable literal
  | change target delta start finish =>
    isName target ∧ delta.Printable literal ∧ start.Printable literal ∧ finish.Printable literal
  | inspect _ value => value.Printable literal

end PolicyLevers.Script
