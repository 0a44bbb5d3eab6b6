import PolicyLevers.Program.Lowering
import PolicyLevers.Script.Parse

/-!
# Compiling scripts

A script is read, its structure is checked, and it becomes a program.  A script that does not read is
reported once; one that reads has all its structural faults reported.  Blank scripts and scripts of
comments only are no errors and have no program.
-/

namespace PolicyLevers

set_option autoImplicit false

structure ScriptLimits where
  depth : Nat := 500
  /-- The largest count of a repeated expression. -/
  repeats : Nat := 10000
  deriving DecidableEq, Repr

inductive ScriptError where
  | unreadable (error : Script.SyntaxError)
  | structural (error : StructuralError)
  | failed (error : RuntimeError)
  deriving DecidableEq

structure Diagnostic where
  message : String
  code : String
  span : Option Script.Span
  help : Option String
  deriving DecidableEq, Repr

namespace ScriptError

def message : ScriptError → String
  | unreadable error => error.placedMessage
  | structural error => error.fault.message
  | failed error => error.message

def diagnostic : ScriptError → Diagnostic
  | unreadable error => ⟨error.message, "P001", some error.span, none⟩
  | structural error =>
    ⟨error.fault.message, error.fault.code, some error.span, some error.fault.help⟩
  | failed error => ⟨error.message, error.code, none, none⟩

end ScriptError

inductive Compiled where
  | blank
  | program (result : Program)
  | rejected (found : List ScriptError)
  deriving DecidableEq

namespace Compiled

def program? : Compiled → Option Program
  | .program result => some result
  | _ => none

def errors : Compiled → List ScriptError
  | .rejected found => found
  | _ => []

def isOk (compiled : Compiled) : Bool := compiled.errors.isEmpty

end Compiled

/-- The program of statements, or their structural faults. -/
def compileStatements (limits : ScriptLimits) (statements : List Script.Statement) : Compiled :=
  match statements.flatMap Script.Statement.errors with
  | [] =>
    if statements.isEmpty then .blank else .program (.ofStatements limits.repeats statements)
  | errors => .rejected (errors.map .structural)

def compile (limits : ScriptLimits) (source : String) : Compiled :=
  if (Text.trim source.toList).isEmpty then .blank
  else
    match Script.parse limits.depth source with
    | .error error => .rejected [.unreadable error]
    | .ok statements => compileStatements limits statements

end PolicyLevers
