import Mathlib.Data.List.Basic
import PolicyLevers.Program.Lowering

/-!
# Errors noted on the way

A program and the errors of its syntax tree can be had together: one walk rewrites every part and notes what is
wrong with it behind what was noted before.  The walk gives the program of the tree and notes its errors.
-/

namespace PolicyLevers.Script

set_option autoImplicit false

abbrev Noting := StateM (List StructuralError)

def note (span : Span) (fault : StructuralFault) (wrong : Bool) : Noting Unit :=
  if wrong then modify (· ++ [⟨fault, span⟩]) else return ()

def lifecycleNoting (span : Span) (texts : List String) : Noting Lifecycle := do
  texts.forM (fun text =>
    note span (.lifecycleOutsideLedger text) ((Path.parse text).area ≠ some .ledger))
  return .ofPaths (texts.map Path.parse)

def Expr.lowerNoting (span : Span) : Expr → Noting Expression
  | .number value => return .number value
  | .path text => return .read (Path.parse text)
  | .binary op left right => return .binary op (← left.lowerNoting span) (← right.lowerNoting span)
  | .conditional test left right consequent alternative =>
    return .conditional test (← left.lowerNoting span) (← right.lowerNoting span)
      (← consequent.lowerNoting span) (← alternative.lowerNoting span)
  | .lifecycle paths => return .lifecycle (← lifecycleNoting span paths)
  | .uniform low high => return .uniform (← low.lowerNoting span) (← high.lowerNoting span)
  | .normal mean deviation => return .normal (← mean.lowerNoting span) (← deviation.lowerNoting span)
  | .repeated reducer count body =>
    return .repeated reducer (← count.lowerNoting span) (← body.lowerNoting span)

def StatementKind.lowerNoting (span : Span) : StatementKind → Noting Instruction
  | .definition name value => do
    note span (.dottedDefinition name) (name.toList.contains '.')
    return .define name (← value.lowerNoting span)
  | .assignment target value => return .assign (Path.parse target) (← value.lowerNoting span)
  | .limit target lower upper =>
    return .limit (Path.parse target) (← lower.mapM (·.lowerNoting span)) (← upper.mapM (·.lowerNoting span))
  | .distribute value targets split => do
    let amount ← value.lowerNoting span
    let shares ← targets.mapM (fun target => do
      return (Path.parse target.path, ← target.weight.mapM (·.lowerNoting span)))
    return .distribute amount shares split
  | .change target delta start finish =>
    return .change (Path.parse target) (← delta.lowerNoting span) (← start.lowerNoting span)
      (← finish.lowerNoting span)
  | .inspect label value => return .inspect label (← value.lowerNoting span)

def lowerNoting (statements : List Statement) : Noting (List Instruction) :=
  statements.mapM (fun statement => statement.kind.lowerNoting statement.span)

/-- The walk gives the value and notes the errors, whatever was noted before. -/
def Notes {α : Type} (walk : Noting α) (value : α) (errors : List StructuralError) : Prop :=
  ∀ noted, walk noted = (value, noted ++ errors)

namespace Notes

variable {α β ι : Type} {walk : Noting α} {value : α} {errors : List StructuralError}

theorem congr {others : List StructuralError} (notes : Notes walk value errors) (same : errors = others) :
    Notes walk value others := same ▸ notes

theorem pure (value : α) : Notes (Pure.pure value) value [] := by
  intro noted
  rw [List.append_nil]
  rfl

theorem bind {next : α → Noting β} {result : β} {later : List StructuralError}
    (first : Notes walk value errors) (second : Notes (next value) result later) :
    Notes (walk >>= next) result (errors ++ later) := by
  intro noted
  have both : (walk >>= next) noted = next (walk noted).1 (walk noted).2 := rfl
  rw [both, first noted, second (noted ++ errors), List.append_assoc]

theorem map (change : α → β) (notes : Notes walk value errors) :
    Notes (walk >>= fun own => Pure.pure (change own)) (change value) errors :=
  (notes.bind (pure (change value))).congr (List.append_nil errors)

theorem behind {first : Noting Unit} {noted : List StructuralError} (notes : Notes walk value errors)
    (front : Notes first () noted) : Notes (first >>= fun _ => walk) value (noted ++ errors) :=
  front.bind notes

theorem fault (span : Span) (fault : StructuralFault) (wrong : Bool) :
    Notes (note span fault wrong) () (if wrong then [⟨fault, span⟩] else []) := by
  cases wrong with
  | true => exact fun _ => rfl
  | false => exact pure ()

theorem mapM {items : List ι} {walk : ι → Noting β} {result : ι → β} {errors : ι → List StructuralError}
    (each : ∀ item, Notes (walk item) (result item) (errors item)) :
    Notes (items.mapM walk) (items.map result) (items.flatMap errors) := by
  induction items with
  | nil => exact pure []
  | cons item items induction =>
      rw [List.mapM_cons]
      exact (each item).bind (induction.map _)

theorem option {walk : ι → Noting β} {result : ι → β} {errors : ι → List StructuralError}
    (each : ∀ item, Notes (walk item) (result item) (errors item)) (item : Option ι) :
    Notes (item.mapM walk) (item.map result) (item.toList.flatMap errors) := by
  cases item with
  | none => exact pure none
  | some item => exact ((each item).map some).congr (List.append_nil _).symm

theorem forM {items : List ι} {walk : ι → Noting Unit} {errors : ι → List StructuralError}
    (each : ∀ item, Notes (walk item) () (errors item)) :
    Notes (items.forM walk) () (items.flatMap errors) := by
  induction items with
  | nil => exact pure ()
  | cons item items induction => exact induction.behind (each item)

end Notes

def Expr.errors (span : Span) (expr : Expr) : List StructuralError :=
  expr.strayPaths.map (fun path => ⟨.lifecycleOutsideLedger path, span⟩)

theorem lifecycle_notes (span : Span) (texts : List String) :
    Notes (lifecycleNoting span texts) (.ofPaths (texts.map Path.parse))
      (Expr.errors span (.lifecycle texts)) := by
  refine ((Notes.pure _).behind (.forM (fun text => .fault span (.lifecycleOutsideLedger text) _))).congr ?_
  rw [List.append_nil, Expr.errors, Expr.strayPaths]
  induction texts with
  | nil => rfl
  | cons text texts induction =>
      rw [List.flatMap_cons, List.filter_cons, induction]
      by_cases stray : (Path.parse text).area ≠ some .ledger
      · simp [stray]
      · simp [stray]

theorem expression_notes (span : Span) (expr : Expr) :
    Notes (expr.lowerNoting span) expr.lower (expr.errors span) := by
  induction expr with
  | number value => exact .pure _
  | path text => exact .pure _
  | lifecycle paths => exact (lifecycle_notes span paths).map _
  | binary op left right atLeft atRight =>
      exact (atLeft.bind (atRight.map _)).congr (by simp [Expr.errors, Expr.strayPaths])
  | conditional test left right consequent alternative atLeft atRight atThen atElse =>
      exact (atLeft.bind (atRight.bind (atThen.bind (atElse.map _)))).congr
        (by simp [Expr.errors, Expr.strayPaths])
  | uniform low high atLow atHigh =>
      exact (atLow.bind (atHigh.map _)).congr (by simp [Expr.errors, Expr.strayPaths])
  | normal mean deviation atMean atDeviation =>
      exact (atMean.bind (atDeviation.map _)).congr (by simp [Expr.errors, Expr.strayPaths])
  | repeated reducer count body atCount atBody =>
      exact (atCount.bind (atBody.map _)).congr (by simp [Expr.errors, Expr.strayPaths])

theorem faults_of_statement (span : Span) (kind : StatementKind) :
    kind.faults.map (fun fault => (⟨fault, span⟩ : StructuralError)) =
      kind.dottedName?.toList.map (fun name => ⟨.dottedDefinition name, span⟩) ++
        kind.expressions.flatMap (Expr.errors span) := by
  simp only [StatementKind.faults, List.map_append, List.map_map, List.map_flatMap]
  rfl

theorem statement_notes (span : Span) (kind : StatementKind) :
    Notes (kind.lowerNoting span) kind.lower (kind.faults.map (fun fault => ⟨fault, span⟩)) := by
  rw [faults_of_statement]
  have each := expression_notes span
  cases kind with
  | definition name value =>
      refine (((each value).map _).behind (.fault span (.dottedDefinition name) _)).congr ?_
      rw [StatementKind.dottedName?]
      cases name.toList.contains '.' with
      | true => exact congrArg (List.cons _) (List.append_nil _).symm
      | false => exact (List.append_nil _).symm
  | assignment target value => exact ((each value).map _).congr (List.append_nil _).symm
  | limit target lower upper =>
      refine ((Notes.option each lower).bind ((Notes.option each upper).map _)).congr ?_
      simp [StatementKind.dottedName?, StatementKind.expressions]
  | distribute value targets split =>
      have share (target : Target) := (Notes.option each target.weight).map (Prod.mk (Path.parse target.path))
      refine ((each value).bind ((Notes.mapM share).map _)).congr ?_
      rw [StatementKind.expressions, List.flatMap_cons, List.filterMap_eq_flatMap_toList, List.flatMap_assoc]
      rfl
  | change target delta start finish =>
      refine ((each delta).bind ((each start).bind ((each finish).map _))).congr ?_
      simp [StatementKind.dottedName?, StatementKind.expressions]
  | inspect label value => exact ((each value).map _).congr (List.append_nil _).symm

theorem script_notes (statements : List Statement) :
    Notes (lowerNoting statements) (statements.map (fun statement => statement.kind.lower))
      (statements.flatMap Statement.errors) :=
  .mapM (fun statement => statement_notes statement.span statement.kind)

end PolicyLevers.Script
