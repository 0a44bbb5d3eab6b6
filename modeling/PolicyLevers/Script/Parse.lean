import PolicyLevers.Script.Grammar
import PolicyLevers.Script.Nesting
import PolicyLevers.Script.Tree

/-!
# Reading scripts

`parse` turns the text of a script into statements.  A text that is no script is reported where the
grammar got stuck.  A text that is one may still hold faults, and the first of them is reported.  These
are of two kinds, expressions that nest too deep and numbers that do not read as one; the forms that
the grammar finds leave no room for a missing or misplaced part.
-/

namespace PolicyLevers.Script

set_option autoImplicit false

inductive SyntaxFault where
  | unexpected (expected : List Expectation)
  | tooDeep (limit : Nat)
  | brokenNumber
  deriving DecidableEq, Repr

def SyntaxFault.message : SyntaxFault → String
  | unexpected expected => expectedMessage expected
  | tooDeep limit =>
    "Expression nesting depth exceeds maximum of " ++ toString limit ++ " levels"
  | brokenNumber => "invalid number: invalid float literal"

def FaultKind.toSyntaxFault : FaultKind → SyntaxFault
  | tooDeep limit => .tooDeep limit
  | brokenNumber => .brokenNumber

structure SyntaxError where
  fault : SyntaxFault
  span : Span
  place : LineColumn
  deriving DecidableEq, Repr

def SyntaxError.at (text : List Char) (span : Span) (fault : SyntaxFault) : SyntaxError :=
  ⟨fault, span, lineColumn text span.start⟩

def SyntaxError.message (error : SyntaxError) : String := error.fault.message

def SyntaxError.placedMessage (error : SyntaxError) : String :=
  "(line " ++ toString error.place.line ++ ", col " ++ toString error.place.column ++ "): " ++
    error.message

/-- The statements of a script whose expressions nest at most `limit` levels deep. -/
def parse (limit : Nat) (source : String) : Except SyntaxError (List Statement) :=
  let text := source.toList
  let scanned := scan text
  let offsets := Offsets.ofScan scanned
  let reply := Grammar.read scanned.lexemes
  match reply.outcome with
  | none =>
    let offset := offsets.startAt reply.missed.ahead
    .error (.at text ⟨offset, offset⟩ (.unexpected reply.missed.expected))
  | some (statements, _) =>
    match statements.flatMap (fun statement => statement.form.faults limit) with
    | fault :: _ => .error (.at text (offsets.span fault.extent) fault.kind.toSyntaxFault)
    | [] =>
      .ok (statements.map (fun statement =>
        ⟨offsets.span statement.extent, statement.form.toKind⟩))

end PolicyLevers.Script
