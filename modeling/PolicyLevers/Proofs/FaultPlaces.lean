import Mathlib.Data.List.Basic
import PolicyLevers.Program.Compile
import PolicyLevers.Proofs.ErrorPositions
import PolicyLevers.Proofs.NotedErrors
import PolicyLevers.Proofs.PrintedWords
import PolicyLevers.Proofs.StateLocations

/-!
# Places of structural faults

A place is the way to a part of a script: the number of the statement and then, from part to part, the number
of the next part, counted from left to right.  Places are compared like words, number by number, so a place
comes in front of the places inside it.  What is wrong with a script is told place by place, free of any walk;
lowering finds exactly these faults, in the order of their places.
-/

namespace PolicyLevers

set_option autoImplicit false

/-! ## Lists in the order of places -/

/-- The items are those that stand at the places, each once, in the order of the places. -/
def ListedByPlace {ι : Type} (stands : List Nat → ι → Prop) (items : List ι) : Prop :=
  ∃ found : List (List Nat × ι), found.map Prod.snd = items ∧
    (found.map Prod.fst).Pairwise (· < ·) ∧ ∀ place item, (place, item) ∈ found ↔ stands place item

namespace ListedByPlace

variable {ι κ χ : Type}

theorem congr {stands others : List Nat → ι → Prop} {items : List ι} (listed : ListedByPlace stands items)
    (same : ∀ place item, stands place item ↔ others place item) : ListedByPlace others items := by
  obtain ⟨found, snds, ascending, members⟩ := listed
  exact ⟨found, snds, ascending, fun place item => (members place item).trans (same place item)⟩

theorem nothing {stands : List Nat → ι → Prop} (free : ∀ place item, ¬stands place item) :
    ListedByPlace stands [] :=
  ⟨[], rfl, .nil, fun place item => ⟨nofun, fun standing => absurd standing (free place item)⟩⟩

theorem map {stands : List Nat → ι → Prop} {items : List ι} (listed : ListedByPlace stands items)
    (change : ι → κ) :
    ListedByPlace (fun place item => ∃ own, stands place own ∧ item = change own) (items.map change) := by
  obtain ⟨found, rfl, ascending, members⟩ := listed
  refine ⟨found.map (fun entry => (entry.1, change entry.2)), ?_, ?_, ?_⟩
  · rw [List.map_map, List.map_map]
    rfl
  · rwa [List.map_map]
  · intro place item
    simp only [List.mem_map, Prod.exists, Prod.mk.injEq, members]
    constructor
    · rintro ⟨_, own, standing, rfl, rfl⟩
      exact ⟨own, standing, rfl⟩
    · rintro ⟨own, standing, rfl⟩
      exact ⟨place, own, standing, rfl, rfl⟩

theorem own (item : Option ι) : ListedByPlace (fun place other => place = [] ∧ item = some other) item.toList := by
  cases item with
  | none => exact nothing (by simp)
  | some item => exact ⟨[([], item)], rfl, List.pairwise_singleton _ _, by simp [eq_comm]⟩

theorem inside (number : Nat) {stands : List Nat → ι → Prop} {items : List ι} (listed : ListedByPlace stands items) :
    ListedByPlace (fun place item => ∃ rest, place = number :: rest ∧ stands rest item) items := by
  obtain ⟨found, rfl, ascending, members⟩ := listed
  refine ⟨found.map (fun entry => (number :: entry.1, entry.2)), ?_, ?_, ?_⟩
  · rw [List.map_map]
    rfl
  · have deeper := ascending.map (List.cons number)
      (fun _ _ before => List.cons_lt_cons_iff.mpr (.inr ⟨rfl, before⟩))
    rwa [List.map_map] at deeper ⊢
  · intro place item
    simp only [List.mem_map, Prod.exists, Prod.mk.injEq, members]
    constructor
    · rintro ⟨rest, _, standing, rfl, rfl⟩
      exact ⟨rest, rfl, standing⟩
    · rintro ⟨rest, rfl, standing⟩
      exact ⟨rest, item, standing, rfl, rfl⟩

theorem append {stands others : List Nat → ι → Prop} {items later : List ι}
    (first : ListedByPlace stands items) (second : ListedByPlace others later)
    (apart : ∀ {place item other behind}, stands place item → others other behind → place < other) :
    ListedByPlace (fun place item => stands place item ∨ others place item) (items ++ later) := by
  obtain ⟨found, rfl, ascending, members⟩ := first
  obtain ⟨more, rfl, moreAscending, moreMembers⟩ := second
  refine ⟨found ++ more, List.map_append, ?_, fun place item => ?_⟩
  · rw [List.map_append, List.pairwise_append]
    refine ⟨ascending, moreAscending, fun place here other there => ?_⟩
    obtain ⟨⟨_, item⟩, member, rfl⟩ := List.mem_map.mp here
    obtain ⟨⟨_, behind⟩, moreMember, rfl⟩ := List.mem_map.mp there
    exact apart ((members _ _).mp member) ((moreMembers _ _).mp moreMember)
  · rw [List.mem_append, members, moreMembers]

theorem branches (parts : List χ) {stands : χ → List Nat → ι → Prop} {items : χ → List ι}
    (each : ∀ part ∈ parts, ListedByPlace (stands part) (items part)) :
    ListedByPlace (fun place item => ∃ index rest part,
      place = index :: rest ∧ parts[index]? = some part ∧ stands part rest item)
      (parts.flatMap items) := by
  -- the numbers of the parts are counted from any start, for the induction
  have numbered (start : Nat) : ListedByPlace (fun place item => ∃ index rest part,
      place = (start + index) :: rest ∧ parts[index]? = some part ∧ stands part rest item)
      (parts.flatMap items) := by
    induction parts generalizing start with
    | nil => exact nothing (by simp)
    | cons part others induction =>
        have first := (each part List.mem_cons_self).inside start
        have later := induction (fun other member => each other (List.mem_cons_of_mem _ member)) (start + 1)
        refine (first.append later ?_).congr (fun place item => ?_)
        · rintro _ _ _ _ ⟨_, rfl, _⟩ ⟨index, _, _, rfl, _⟩
          exact List.cons_lt_cons_iff.mpr (.inl (by omega))
        · constructor
          · rintro (⟨rest, rfl, standing⟩ | ⟨index, rest, other, rfl, listed, standing⟩)
            · exact ⟨0, rest, part, rfl, rfl, standing⟩
            · exact ⟨index + 1, rest, other, by rw [Nat.add_assoc, Nat.add_comm 1], listed, standing⟩
          · rintro ⟨index, rest, other, rfl, listed, standing⟩
            cases index with
            | zero =>
                obtain rfl : part = other := by simpa using listed
                exact .inl ⟨rest, rfl, standing⟩
            | succ index =>
                exact .inr ⟨index, rest, other, by rw [Nat.add_assoc, Nat.add_comm 1], listed, standing⟩
  simpa using numbered 0

theorem picked (items : List ι) (pick : ι → Bool) :
    ListedByPlace (fun place item => ∃ index, place = [index] ∧ items[index]? = some item ∧ pick item = true)
      (items.filter pick) := by
  have each := branches items (fun item _ => own (Option.guard pick item))
  rw [← List.filterMap_eq_flatMap_toList, List.filterMap_eq_filter] at each
  refine each.congr (fun place item => ?_)
  simp only [Option.guard_eq_some_iff]
  constructor
  · rintro ⟨index, _, _, rfl, here, rfl, rfl, picks⟩
    exact ⟨index, rfl, here, picks⟩
  · rintro ⟨index, rfl, here, picks⟩
    exact ⟨index, [], item, rfl, here, rfl, rfl, picks⟩

end ListedByPlace

namespace Script

/-! ## Where faults stand -/

def InLedger (path : String) : Prop := "out.".toList <+: path.toList

/-- The parts of an expression from left to right; a condition comes in front of what it decides. -/
def Expr.parts : Expr → List Expr
  | .number _ => []
  | .path _ => []
  | .lifecycle _ => []
  | .binary _ left right => [left, right]
  | .conditional _ left right consequent alternative => [left, right, consequent, alternative]
  | .uniform low high => [low, high]
  | .normal mean deviation => [mean, deviation]
  | .repeated _ count body => [count, body]

inductive Expr.StrayAt : Expr → List Nat → String → Prop
  | listed {paths : List String} {index : Nat} {path : String} :
      paths[index]? = some path → ¬InLedger path → StrayAt (.lifecycle paths) [index] path
  | within {expr part : Expr} {index : Nat} {place : List Nat} {path : String} :
      expr.parts[index]? = some part → StrayAt part place path → StrayAt expr (index :: place) path

/-- The places for expressions in a statement from left to right; bounds and weights may be missing. -/
def StatementKind.slots : StatementKind → List (Option Expr)
  | .definition _ value => [some value]
  | .assignment _ value => [some value]
  | .limit _ lower upper => [lower, upper]
  | .distribute value targets _ => some value :: targets.map Target.weight
  | .change _ delta start finish => [some delta, some start, some finish]
  | .inspect _ value => [some value]

/-- Something is wrong at a place inside the statement; its name stands in front of its expressions. -/
inductive StatementKind.FaultAt : StatementKind → List Nat → StructuralFault → Prop
  | name {name : String} {value : Expr} :
      '.' ∈ name.toList → FaultAt (.definition name value) [] (.dottedDefinition name)
  | within {kind : StatementKind} {expr : Expr} {index : Nat} {place : List Nat} {path : String} :
      kind.slots[index]? = some (some expr) → expr.StrayAt place path →
      FaultAt kind (index :: place) (.lifecycleOutsideLedger path)

/-- Something is wrong at a place inside a script, and the error has the span of the statement around it. -/
def FaultAt (statements : List Statement) (place : List Nat) (error : StructuralError) : Prop :=
  ∃ index inside statement, place = index :: inside ∧ statements[index]? = some statement ∧
    statement.kind.FaultAt inside error.fault ∧ error.span = statement.span

/-! ## Faults are found in order -/

theorem in_ledger_iff {path : String} : (Path.parse path).area = some .ledger ↔ InLedger path := by
  unfold InLedger
  constructor
  · intro inside
    have joined := split_at_join '.' path.toList
    unfold Path.parse at inside
    cases pieces : Text.splitAt '.' path.toList with
    | mk head more =>
        rw [pieces] at inside joined
        cases more with
        | nil => cases inside
        | cons first rest =>
            have named : String.ofList head = "out" := section_named_iff.mp inside
            have letters : head = "out".toList := by rw [← named, String.toList_ofList]
            rw [← joined, letters]
            exact ⟨first ++ rest.flatMap (List.cons '.'), rfl⟩
  · rintro ⟨behind, whole⟩
    unfold Path.parse
    rw [← whole]
    rfl

/-- What holds of an expression once it holds of its parts holds of every expression. -/
theorem Expr.parts_induction {claim : Expr → Prop}
    (step : ∀ expr : Expr, (∀ part ∈ expr.parts, claim part) → claim expr) (expr : Expr) : claim expr := by
  induction expr with
  | number _ => exact step _ (by simp [parts])
  | path _ => exact step _ (by simp [parts])
  | lifecycle _ => exact step _ (by simp [parts])
  | binary _ left right atLeft atRight => exact step _ (by simp [parts, atLeft, atRight])
  | conditional _ left right consequent alternative atLeft atRight atThen atElse =>
      exact step _ (by simp [parts, atLeft, atRight, atThen, atElse])
  | uniform low high atLow atHigh => exact step _ (by simp [parts, atLow, atHigh])
  | normal mean deviation atMean atDeviation => exact step _ (by simp [parts, atMean, atDeviation])
  | repeated _ count body atCount atBody => exact step _ (by simp [parts, atCount, atBody])

theorem stray_paths_of_parts {expr : Expr} (noList : ∀ paths, expr ≠ .lifecycle paths) :
    expr.strayPaths = expr.parts.flatMap Expr.strayPaths := by
  cases expr with
  | lifecycle paths => exact absurd rfl (noList paths)
  | _ => simp [Expr.strayPaths, Expr.parts]

theorem stray_in_list_iff {paths : List String} {place : List Nat} {path : String} :
    Expr.StrayAt (.lifecycle paths) place path ↔
      ∃ index, place = [index] ∧ paths[index]? = some path ∧ ¬InLedger path := by
  constructor
  · intro stray
    cases stray with
    | listed here outside => exact ⟨_, rfl, here, outside⟩
    | within here _ => simp [Expr.parts] at here
  · rintro ⟨index, rfl, here, outside⟩
    exact .listed here outside

theorem stray_within_iff {expr : Expr} (noList : ∀ paths, expr ≠ .lifecycle paths) {place : List Nat}
    {path : String} :
    expr.StrayAt place path ↔ ∃ index rest part,
      place = index :: rest ∧ expr.parts[index]? = some part ∧ part.StrayAt rest path := by
  constructor
  · intro stray
    cases stray with
    | listed => exact absurd rfl (noList _)
    | within here deeper => exact ⟨_, _, _, rfl, here, deeper⟩
  · rintro ⟨index, rest, part, rfl, here, deeper⟩
    exact .within here deeper

theorem stray_paths_listed (expr : Expr) : ListedByPlace expr.StrayAt expr.strayPaths := by
  induction expr using Expr.parts_induction with
  | step expr inside =>
      by_cases noList : ∀ paths, expr ≠ .lifecycle paths
      · rw [stray_paths_of_parts noList]
        exact (ListedByPlace.branches expr.parts inside).congr (fun _ _ => (stray_within_iff noList).symm)
      · push Not at noList
        obtain ⟨paths, rfl⟩ := noList
        refine (ListedByPlace.picked paths _).congr (fun place path => ?_)
        simp only [stray_in_list_iff, ← in_ledger_iff, decide_eq_true_eq]

theorem expressions_in_slots (kind : StatementKind) : kind.expressions = kind.slots.flatMap Option.toList := by
  cases kind with
  | distribute value targets split =>
      simp [StatementKind.expressions, StatementKind.slots, List.filterMap_eq_flatMap_toList, List.flatMap_map]
  | limit target lower upper => simp [StatementKind.expressions, StatementKind.slots]
  | _ => rfl

theorem slot_strays_listed (slot : Option Expr) :
    ListedByPlace (fun place path => ∃ expr, slot = some expr ∧ expr.StrayAt place path)
      (slot.toList.flatMap Expr.strayPaths) := by
  cases slot with
  | none => exact .nothing (by simp)
  | some expr =>
      rw [Option.toList_some, List.flatMap_singleton]
      exact (stray_paths_listed expr).congr (by simp)

theorem fault_at_iff {kind : StatementKind} {place : List Nat} {fault : StructuralFault} :
    kind.FaultAt place fault ↔
      place = [] ∧ kind.dottedName?.map .dottedDefinition = some fault ∨
      ∃ path, (∃ index rest slot, place = index :: rest ∧ kind.slots[index]? = some slot ∧
        ∃ expr, slot = some expr ∧ expr.StrayAt rest path) ∧ fault = .lifecycleOutsideLedger path := by
  constructor
  · intro wrong
    cases wrong with
    | name dotted =>
        exact .inl ⟨rfl, by rw [dotted_name_iff.mpr ⟨⟨_, rfl⟩, dotted⟩]; rfl⟩
    | within here stray => exact .inr ⟨_, ⟨_, _, _, rfl, here, _, rfl, stray⟩, rfl⟩
  · rintro (⟨rfl, own⟩ | ⟨path, ⟨index, rest, _, rfl, here, expr, rfl, stray⟩, rfl⟩)
    · obtain ⟨name, dotted, rfl⟩ := Option.map_eq_some_iff.mp own
      obtain ⟨⟨value, rfl⟩, period⟩ := dotted_name_iff.mp dotted
      exact .name period
    · exact .within here stray

/-- The faults of a statement stand at its places: the name first, then the expressions. -/
theorem faults_listed (kind : StatementKind) : ListedByPlace kind.FaultAt kind.faults := by
  have front := ListedByPlace.own (kind.dottedName?.map StructuralFault.dottedDefinition)
  have deeper := (ListedByPlace.branches kind.slots
    (fun slot _ => slot_strays_listed slot)).map StructuralFault.lifecycleOutsideLedger
  rw [StatementKind.faults, ← Option.toList_map, expressions_in_slots, List.flatMap_assoc]
  refine (front.append deeper ?_).congr (fun _ _ => fault_at_iff.symm)
  rintro _ _ _ _ ⟨rfl, _⟩ ⟨_, ⟨index, rest, _, rfl, _⟩, _⟩
  exact List.nil_lt_cons index rest

theorem errors_listed (statements : List Statement) :
    ListedByPlace (FaultAt statements) (statements.flatMap Statement.errors) := by
  have each := ListedByPlace.branches statements (fun statement _ =>
    (faults_listed statement.kind).map (fun fault => (⟨fault, statement.span⟩ : StructuralError)))
  refine each.congr (fun place error => ?_)
  constructor
  · rintro ⟨index, rest, statement, rfl, here, fault, wrong, rfl⟩
    exact ⟨index, rest, statement, rfl, here, wrong, rfl⟩
  · rintro ⟨index, rest, statement, rfl, here, wrong, span⟩
    exact ⟨index, rest, statement, rfl, here, error.fault, wrong, by rw [← span]⟩

end Script

/-- Lowering a syntax tree finds what is wrong at each of its places, exactly once and in the order of the places:
statement by statement, the declared name first, then the paths of lifetime queries from left to right, a
condition in front of what it decides.  One walk that rewrites the tree and notes errors gives the program and
notes these errors.  The script is refused with all of them, or with none if nothing is wrong at any place. -/
theorem structural_errors_are_found_in_place (limits : ScriptLimits) (statements : List Script.Statement) :
    ∃ found : List (List Nat × StructuralError),
      (found.map Prod.fst).Pairwise (· < ·) ∧
      (∀ place error, (place, error) ∈ found ↔ Script.FaultAt statements place error) ∧
      Script.lowerNoting statements [] =
        ((Program.ofStatements limits.repeats statements).instructions, found.map Prod.snd) ∧
      compileStatements limits statements =
        (match found with
        | [] => if statements.isEmpty then .blank else .program (.ofStatements limits.repeats statements)
        | _ => .rejected (found.map (fun entry => .structural entry.2))) ∧
      ((∃ errors, compileStatements limits statements = .rejected errors) ↔
        ∃ place error, Script.FaultAt statements place error) := by
  obtain ⟨found, errors, ascending, members⟩ := Script.errors_listed statements
  have walk := Script.script_notes statements []
  rw [List.nil_append, ← errors] at walk
  refine ⟨found, ascending, members, walk, ?_, ?_⟩
  · unfold compileStatements
    rw [← errors]
    cases found with
    | nil => rfl
    | cons entry found => simp
  · unfold compileStatements
    simp only [← errors, ← members]
    cases found with
    | nil => cases statements <;> simp
    | cons entry found =>
        exact iff_of_true ⟨_, rfl⟩ ⟨entry.1, entry.2, List.mem_cons_self⟩

/-- The condition comes in front of what it decides, the name in front of the value. -/
example : (compile {} "x = lifecycle of [in.a] if lifecycle of [b] > 0 else 1; var y.z = lifecycle of [c];").errors.map
      ScriptError.message =
    ["Identifier for lifecycle must be in out: b", "Identifier for lifecycle must be in out: in.a",
      "Cannot make new variables with periods in the name: y.z", "Identifier for lifecycle must be in out: c"] := by
  decide +kernel

end PolicyLevers
