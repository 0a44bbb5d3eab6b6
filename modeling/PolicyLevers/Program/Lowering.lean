import PolicyLevers.Ledger.Catalog
import PolicyLevers.Program.Basic
import PolicyLevers.Script.Tree

/-!
# From syntax trees to programs

Every syntax tree has a program.  Trees with structural faults are refused all the same: variables
are declared by bare names, and lifetimes are asked only of the ledger.  `Statement.errors` lists the
faults of a tree, each with the span of its statement, in a fixed walk from left to right in which a
condition comes before the branches it decides.
-/

namespace PolicyLevers

set_option autoImplicit false

inductive StructuralFault where
  | dottedDefinition (name : String)
  | lifecycleOutsideLedger (path : String)
  deriving DecidableEq, Repr

namespace StructuralFault

def message : StructuralFault → String
  | dottedDefinition name => "Cannot make new variables with periods in the name: " ++ name
  | lifecycleOutsideLedger path => "Identifier for lifecycle must be in out: " ++ path

def code : StructuralFault → String
  | dottedDefinition _ => "C001"
  | lifecycleOutsideLedger _ => "C002"

def help : StructuralFault → String
  | dottedDefinition _ => "Declare a bare name with var, or assign to an existing path"
  | lifecycleOutsideLedger _ => "List attributes as out.REGION.ATTRIBUTE"

end StructuralFault

/-- A structural fault and the statement it is in. -/
structure StructuralError where
  fault : StructuralFault
  span : Script.Span
  deriving DecidableEq, Repr

/-- The family of the attribute that a path names, where the attribute has a lifetime. -/
def lifetimeFamily? (path : Path) : Option Catalog.Family :=
  (Catalog.family? path.last).filter (fun family => family ≠ .production)

def Lifecycle.ofPaths (paths : List Path) : Lifecycle :=
  match paths.find? (fun path => (lifetimeFamily? path).isNone) with
  | some path => .unknown path.text
  | none =>
    let families := paths.filterMap lifetimeFamily?
    if families.contains .endOfLife then
      if families.contains .consumption then .mixed
      else .endOfLife (Path.input Catalog.recyclingDelay)
    else
      .consumption (paths.map (fun path => (path, Path.input (Catalog.lifetimeInput path.last))))

namespace Script

def Expr.lower : Expr → Expression
  | .number value => .number value
  | .path text => .read (Path.parse text)
  | .binary op left right => .binary op left.lower right.lower
  | .conditional test left right consequent alternative =>
    .conditional test left.lower right.lower consequent.lower alternative.lower
  | .lifecycle paths => .lifecycle (Lifecycle.ofPaths (paths.map Path.parse))
  | .uniform low high => .uniform low.lower high.lower
  | .normal mean deviation => .normal mean.lower deviation.lower
  | .repeated reducer count body => .repeated reducer count.lower body.lower

/-- The paths outside the ledger that an expression asks for a lifetime. -/
def Expr.strayPaths : Expr → List String
  | .number _ => []
  | .path _ => []
  | .binary _ left right => left.strayPaths ++ right.strayPaths
  | .conditional _ left right consequent alternative =>
    left.strayPaths ++ (right.strayPaths ++ (consequent.strayPaths ++ alternative.strayPaths))
  | .lifecycle paths => paths.filter (fun text => (Path.parse text).area ≠ some .ledger)
  | .uniform low high => low.strayPaths ++ high.strayPaths
  | .normal mean deviation => mean.strayPaths ++ deviation.strayPaths
  | .repeated _ count body => count.strayPaths ++ body.strayPaths

def StatementKind.expressions : StatementKind → List Expr
  | .definition _ value => [value]
  | .assignment _ value => [value]
  | .limit _ lower upper => lower.toList ++ upper.toList
  | .distribute value targets _ => value :: targets.filterMap Target.weight
  | .change _ delta start finish => [delta, start, finish]
  | .inspect _ value => [value]

def StatementKind.lower : StatementKind → Instruction
  | .definition name value => .define name value.lower
  | .assignment target value => .assign (Path.parse target) value.lower
  | .limit target lower upper =>
    .limit (Path.parse target) (lower.map Expr.lower) (upper.map Expr.lower)
  | .distribute value targets split =>
    .distribute value.lower
      (targets.map (fun target => (Path.parse target.path, target.weight.map Expr.lower))) split
  | .change target delta start finish =>
    .change (Path.parse target) delta.lower start.lower finish.lower
  | .inspect label value => .inspect label value.lower

/-- The name that a statement declares, if it may not be declared. -/
def StatementKind.dottedName? : StatementKind → Option String
  | .definition name _ => if name.toList.contains '.' then some name else none
  | _ => none

def StatementKind.faults (kind : StatementKind) : List StructuralFault :=
  kind.dottedName?.toList.map .dottedDefinition ++
    (kind.expressions.flatMap Expr.strayPaths).map .lifecycleOutsideLedger

def Statement.errors (statement : Statement) : List StructuralError :=
  statement.kind.faults.map (fun fault => ⟨fault, statement.span⟩)

end Script

def Program.ofStatements (repeatLimit : Nat) (statements : List Script.Statement) : Program :=
  ⟨statements.map (fun statement => statement.kind.lower), repeatLimit⟩

end PolicyLevers
