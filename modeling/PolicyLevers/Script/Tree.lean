import PolicyLevers.Decimal.Reading
import PolicyLevers.Script.Chain
import PolicyLevers.Script.Phrase

/-!
# From phrases to syntax trees

Groups the chains of a phrase by precedence and forgets where its parts stood.  Numbers take the
values their digits name.
-/

namespace PolicyLevers.Script

set_option autoImplicit false

/-- The value of a number as written.  Digits that the scanner took for a number name one. -/
def numberValue (sign : Option Char) (digits : List Char) : Float :=
  (Decimal.readFloat (sign.toList ++ digits)).getD Decimal.notNumber

mutual

def Operand.toExpr : Operand → Expr
  | .number _ sign digits => .number (numberValue (sign.map (·.1)) digits)
  | .path _ text => .path text
  | .lifecycle _ paths => .lifecycle paths
  | .uniform _ low high => .uniform (.ofChain low.toJoined) (.ofChain high.toJoined)
  | .normal _ mean deviation => .normal (.ofChain mean.toJoined) (.ofChain deviation.toJoined)
  | .repeated _ reducer count body => .repeated reducer count.toExpr body.toExpr
  | .group _ body => body.toExpr

def Chain.toJoined : Chain → Joined Expr
  | .last operand => ⟨operand.toExpr, []⟩
  | .join operand op rest =>
    let joined := rest.toJoined
    ⟨operand.toExpr, (op, joined.first) :: joined.others⟩

def Phrase.toExpr : Phrase → Expr
  | .plain value => .ofChain value.toJoined
  | .conditional value left test right alternative =>
    .conditional test (.ofChain left.toJoined) (.ofChain right.toJoined) (.ofChain value.toJoined)
      alternative.toExpr

end

def Chain.toExpr (chain : Chain) : Expr := .ofChain chain.toJoined

def StatementForm.toKind : StatementForm → StatementKind
  | .definition name value => .definition name value.toExpr
  | .assignment target value => .assignment target value.toExpr
  | .limit target lower upper =>
    .limit target (lower.map Phrase.toExpr) (upper.map Phrase.toExpr)
  | .distribute value targets split =>
    .distribute value.toExpr
      (targets.map (fun (place, weight) => ⟨place, weight.map Chain.toExpr⟩)) split
  | .change target delta start finish =>
    .change target delta.toExpr start.toExpr finish.toExpr
  | .inspect label value => .inspect label value.toExpr

structure Statement where
  span : Span
  kind : StatementKind
  deriving DecidableEq

end PolicyLevers.Script
