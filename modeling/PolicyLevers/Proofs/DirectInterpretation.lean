import PolicyLevers.Proofs.AtomicStatements
import PolicyLevers.Proofs.JoinedScripts

/-!
# Syntax trees read directly

A reference meaning of scripts that builds no program: it walks the syntax tree, splits an identifier
when it comes to it and classifies a lifetime query when it is asked.  Running the program of a tree
does the same to every world, whether it ends well or with a failure.
-/

namespace PolicyLevers

set_option autoImplicit false

namespace Script

/-! ## The reference -/

def sum (values : List Float) : Float := values.foldl (· + ·) 0.0

def isConsumption (text : String) : Bool := Catalog.consumption.contains (Path.parse text).last

def isEndOfLife (text : String) : Bool := Catalog.endOfLife.contains (Path.parse text).last

/-- The input with the lifetime of an attribute: the unit at the end of its name makes way. -/
def lifetimeText (name : String) : String :=
  "in." ++ String.ofList (name.toList.dropLast.dropLast ++ "Lifecycle".toList)

structure Consumption where
  magnitude : Float
  lifetime : Float

def Consumption.find (state : State) (text : String) : Except RuntimeError Consumption := do
  let magnitude ← state.get (Path.parse text)
  let lifetime ← state.get (Path.parse (lifetimeText (Path.parse text).last))
  pure ⟨magnitude, lifetime⟩

/-- The mean lifetime of some paths weighted by magnitude, or the plain one if the magnitudes come to
nothing. -/
def meanLifetime (paths : Nat) (found : List Consumption) : Float :=
  let magnitude := sum (found.map Consumption.magnitude)
  if magnitude == 0.0 then sum (found.map Consumption.lifetime) / Float.ofNat paths
  else sum (found.map (fun part => part.lifetime * part.magnitude)) / magnitude

def lifetimeOf (state : State) (texts : List String) : Except RuntimeError Float :=
  match texts.find? (fun text => !isConsumption text && !isEndOfLife text) with
  | some text => .error (.unknownLifecycle text)
  | none =>
    if texts.any isEndOfLife && texts.any isConsumption then .error .mixedLifecycle
    else if texts.any isEndOfLife then state.get (Path.parse "in.recyclingDelay")
    else do
      let found ← texts.mapM (Consumption.find state)
      pure (meanLifetime texts.length found)

def Reducer.reduce : Reducer → List Float → Float
  | .sum, values => Script.sum values
  | .product, values => values.foldl (· * ·) 1.0
  | .average, values => Script.sum values / Float.ofNat values.length

def Expr.value (repeats : Nat) (state : State) : Expr → Drawing Float
  | .number value => pure value
  | .path text => .ofExcept (state.get (Path.parse text))
  | .binary op left right => do
    let leftValue ← left.value repeats state
    let rightValue ← right.value repeats state
    pure (op.apply leftValue rightValue)
  | .conditional test left right consequent alternative => do
    let leftValue ← left.value repeats state
    let rightValue ← right.value repeats state
    if test.holds leftValue rightValue then consequent.value repeats state
    else alternative.value repeats state
  | .lifecycle texts => .ofExcept (lifetimeOf state texts)
  | .uniform low high => do
    let lowValue ← low.value repeats state
    let highValue ← high.value repeats state
    drawUniform lowValue highValue
  | .normal mean deviation => do
    let meanValue ← mean.value repeats state
    let deviationValue ← deviation.value repeats state
    drawNormal meanValue deviationValue
  | .repeated reducer count body => do
    let countValue ← count.value repeats state
    match repetitions? repeats countValue with
    | none => throw (.failure (.repeatCount countValue repeats))
    | some times =>
      let values ← (List.replicate times body).mapM (fun _ => body.value repeats state)
      pure (reducer.reduce values)

def Expr.current (repeats : Nat) (expr : Expr) : Running Float :=
  .reading (expr.value repeats)

/-- The value at a target, then its weight. -/
def Target.find (repeats : Nat) (target : Target) : Running Portion := do
  let before ← Running.get (Path.parse target.path)
  let weight ←
    match target.weight with
    | some weight => weight.current repeats
    | none => pure before
  pure ⟨Path.parse target.path, before, weight⟩

def StatementKind.perform (repeats : Nat) : StatementKind → Running Unit
  | .definition name value => do
    let value ← value.current repeats
    Running.writing (fun state => state.defineLocal name value)
  | .assignment target value => do
    let value ← value.current repeats
    Running.set (Path.parse target) value
  | .limit target lower upper => do
    let lower ← lower.mapM (Expr.current repeats)
    let upper ← upper.mapM (Expr.current repeats)
    let value ← Running.get (Path.parse target)
    Running.set (Path.parse target) (clamp lower upper value)
  | .distribute value targets split => do
    let amount ← value.current repeats
    if amount.abs < distributeThreshold then pure ()
    else
      let portions ← targets.mapM (Target.find repeats)
      portions.forM (fun portion =>
        if portion.before != 0.0 then
          Running.set portion.path (portion.before + amount * share split portions portion)
        else pure ())
  | .change target delta start finish => do
    let delta ← delta.current repeats
    let start ← start.current repeats
    let finish ← finish.current repeats
    if start < finish then
      let year ← Running.reading (fun state => .ofExcept state.year)
      let reached := if finish < Decimal.ofInt year then finish else Decimal.ofInt year
      let value ← Running.get (Path.parse target)
      Running.set (Path.parse target) (value + delta / (finish - start) * (reached - start))
    else throw (.failure (.yearRange start finish))
  | .inspect label value => do
    let value ← value.current repeats
    Running.writing (fun state => .ok { state with inspected := state.inspected ++ [⟨label, value⟩] })

def interpret (repeats : Nat) (statements : List Statement) : Running Unit :=
  statements.forM (fun statement => statement.kind.perform repeats)

/-! ## Lifetimes -/

theorem families_are_disjoint :
    ∀ name ∈ Catalog.endOfLife, Catalog.consumption.contains name = false := by
  decide +kernel

/-- On the names of consumption the unit is taken off the end and nowhere else. -/
theorem lifetime_text :
    ∀ name ∈ Catalog.consumption, lifetimeText name = "in." ++ Catalog.lifetimeInput name := by
  decide +kernel

theorem parse_text (text : String) : (Path.parse text).text = text := by
  unfold Path.parse
  split <;> rfl

theorem lifetime_family (text : String) :
    lifetimeFamily? (Path.parse text) =
      match isConsumption text, isEndOfLife text with
      | true, _ => some .consumption
      | false, true => some .endOfLife
      | false, false => none := by
  simp only [lifetimeFamily?, Catalog.family?, List.find?_cons, List.find?_nil,
    Catalog.Family.members, isConsumption, isEndOfLife]
  cases Catalog.consumption.contains (Path.parse text).last <;>
    cases Catalog.endOfLife.contains (Path.parse text).last <;>
      cases Catalog.production.contains (Path.parse text).last <;> rfl

theorem consumption_family (text : String) :
    lifetimeFamily? (Path.parse text) = some .consumption ↔ isConsumption text = true := by
  rw [lifetime_family]
  cases isConsumption text <;> cases isEndOfLife text <;> simp

theorem waste_family (text : String) :
    lifetimeFamily? (Path.parse text) = some .endOfLife ↔ isEndOfLife text = true := by
  rw [lifetime_family]
  cases waste : isEndOfLife text
  · cases isConsumption text <;> simp
  · have other : isConsumption text = false :=
      families_are_disjoint _ (List.contains_iff_mem.mp waste)
    simp [other]

theorem family_is_missing (text : String) :
    (lifetimeFamily? (Path.parse text)).isNone = (!isConsumption text && !isEndOfLife text) := by
  rw [lifetime_family]
  cases isConsumption text <;> cases isEndOfLife text <;> rfl

theorem family_occurs (family : Catalog.Family) (belongs : String → Bool)
    (same : ∀ text, lifetimeFamily? (Path.parse text) = some family ↔ belongs text = true)
    (texts : List String) :
    ((texts.map Path.parse).filterMap lifetimeFamily?).contains family = texts.any belongs := by
  rw [List.filterMap_map, Bool.eq_iff_iff, List.contains_iff_mem, List.mem_filterMap,
    List.any_eq_true]
  exact exists_congr fun text => and_congr_right fun _ => same text

def Consumption.added (sums : Lifecycle.Means) (part : Consumption) : Lifecycle.Means :=
  ⟨sums.weighted + part.lifetime * part.magnitude, sums.magnitudes + part.magnitude,
    sums.lifetimes + part.lifetime⟩

theorem sum_pairs_found (state : State) (sums : Lifecycle.Means) (texts : List String)
    (consumed : ∀ text ∈ texts, isConsumption text = true) :
    Lifecycle.sumPairs state sums ((texts.map Path.parse).map (fun path =>
        (path, Path.input (Catalog.lifetimeInput path.last)))) =
      (do
        let found ← texts.mapM (Consumption.find state)
        pure (found.foldl Consumption.added sums)) := by
  -- the sums so far stand for the paths already folded in
  induction texts generalizing sums with
  | nil => rfl
  | cons text rest ih =>
      have member : (Path.parse text).last ∈ Catalog.consumption :=
        List.contains_iff_mem.mp (consumed text List.mem_cons_self)
      have later : ∀ text ∈ rest, isConsumption text = true := fun other among =>
        consumed other (List.mem_cons_of_mem text among)
      simp only [List.map_cons, Lifecycle.sumPairs, List.mapM_cons, Consumption.find, Path.input,
        lifetime_text _ member, bind_assoc, pure_bind, List.foldl_cons]
      refine bind_congr fun magnitude => bind_congr fun years => ?_
      exact ih _ later

theorem added_sums (found : List Consumption) (sums : Lifecycle.Means) :
    found.foldl Consumption.added sums =
      ⟨(found.map (fun part => part.lifetime * part.magnitude)).foldl (· + ·) sums.weighted,
        (found.map Consumption.magnitude).foldl (· + ·) sums.magnitudes,
        (found.map Consumption.lifetime).foldl (· + ·) sums.lifetimes⟩ := by
  induction found generalizing sums with
  | nil => rfl
  | cons part rest ih => exact ih (Consumption.added sums part)

theorem consumption_value (state : State) {texts : List String}
    (consumed : ∀ text ∈ texts, isConsumption text = true) :
    (Lifecycle.consumption ((texts.map Path.parse).map (fun path =>
        (path, Path.input (Catalog.lifetimeInput path.last))))).evaluate state =
      (do
        let found ← texts.mapM (Consumption.find state)
        pure (meanLifetime texts.length found)) := by
  simp only [Lifecycle.evaluate, sum_pairs_found state _ texts consumed, bind_assoc, pure_bind,
    List.length_map, added_sums]
  rfl

theorem lifecycle_value (state : State) (texts : List String) :
    (Lifecycle.ofPaths (texts.map Path.parse)).evaluate state = lifetimeOf state texts := by
  have stray : (texts.map Path.parse).find? (fun path => (lifetimeFamily? path).isNone) =
      (texts.find? (fun text => !isConsumption text && !isEndOfLife text)).map Path.parse := by
    rw [List.find?_map]
    exact congrArg (fun test => (texts.find? test).map Path.parse) (funext family_is_missing)
  unfold Lifecycle.ofPaths lifetimeOf
  rw [stray]
  cases missing : texts.find? (fun text => !isConsumption text && !isEndOfLife text) with
  | some text =>
      exact congrArg (fun name => Except.error (RuntimeError.unknownLifecycle name)) (parse_text text)
  | none =>
      simp only [Option.map_none, family_occurs _ _ waste_family, family_occurs _ _ consumption_family]
      cases waste : texts.any isEndOfLife
      · -- every path has a family and none is waste
        have consumed : ∀ text ∈ texts, isConsumption text = true := by
          intro text among
          have kept : isEndOfLife text = false := by
            simpa using List.any_eq_false.mp waste text among
          simpa [kept] using List.find?_eq_none.mp missing text among
        exact consumption_value state consumed
      · cases texts.any isConsumption <;> rfl

/-! ## Expressions -/

theorem computed_length {m : Type → Type} [Monad m] [LawfulMonad m] {α β γ : Type} (f : α → m β)
    (items : List α) (next : List β → Nat → m γ) :
    (items.mapM f >>= fun found => next found found.length) =
      (items.mapM f >>= fun found => next found items.length) := by
  induction items generalizing next with
  | nil => simp
  | cons item rest ih =>
      simp only [List.mapM_cons, bind_assoc, pure_bind, List.length_cons]
      exact bind_congr fun first => ih (fun found size => next (first :: found) (size + 1))

theorem accumulated_values {α : Type} (reducer : Reducer) (body : Drawing Float) (item : α)
    (times : Nat) (total : Float) :
    accumulate reducer body times total =
      (do
        let values ← (List.replicate times item).mapM (fun _ => body)
        pure (values.foldl reducer.step total)) := by
  induction times generalizing total with
  | zero => rfl
  | succ times ih =>
      simp only [accumulate, List.replicate_succ, List.mapM_cons, bind_assoc, pure_bind,
        List.foldl_cons]
      exact bind_congr fun value => ih (reducer.step total value)

theorem reduced_values (reducer : Reducer) (values : List Float) :
    reducer.reduce values = reducer.finish (values.foldl reducer.step reducer.start) values.length := by
  cases reducer <;> rfl

theorem lowered_value (repeats : Nat) (state : State) (expr : Expr) :
    expr.lower.evaluate repeats state = expr.value repeats state := by
  induction expr with
  | number value => rfl
  | path text => rfl
  | binary op left right leftSame rightSame =>
      simp only [Expr.lower, Expression.evaluate, Expr.value, leftSame, rightSame]
  | conditional test left right consequent alternative leftSame rightSame takenSame otherSame =>
      simp only [Expr.lower, Expression.evaluate, Expr.value, leftSame, rightSame, takenSame,
        otherSame]
  | lifecycle texts => exact congrArg Drawing.ofExcept (lifecycle_value state texts)
  | uniform low high lowSame highSame =>
      simp only [Expr.lower, Expression.evaluate, Expr.value, lowSame, highSame]
  | normal mean deviation meanSame deviationSame =>
      simp only [Expr.lower, Expression.evaluate, Expr.value, meanSame, deviationSame]
  | repeated reducer count body countSame bodySame =>
      simp only [Expr.lower, Expression.evaluate, Expr.value, countSame, bodySame]
      refine bind_congr fun countValue => ?_
      cases repetitions? repeats countValue with
      | none => rfl
      | some times =>
          -- a mean divides by the number of values in the tree, by the number of repetitions in a program
          have size := computed_length (fun _ => body.value repeats state) (List.replicate times body)
            (fun values size => pure (reducer.finish (values.foldl reducer.step reducer.start) size))
          rw [List.length_replicate] at size
          simp only [accumulated_values reducer _ body, bind_assoc, pure_bind, reduced_values, size]

theorem lowered_current (repeats : Nat) (expr : Expr) :
    Running.reading (fun state => expr.lower.evaluate repeats state) = expr.current repeats :=
  congrArg Running.reading (funext fun state => lowered_value repeats state expr)

/-! ## Statements -/

theorem lowered_bound (repeats : Nat) (bound : Option Expr) :
    evaluateOptional repeats (bound.map Expr.lower) = bound.mapM (Expr.current repeats) := by
  cases bound with
  | none => rfl
  | some expr =>
      simp only [Option.map_some, evaluateOptional, lowered_current, Option.mapM_some, map_eq_pure_bind]

theorem lowered_targets (repeats : Nat) (targets : List Target) :
    readPortions repeats
        (targets.map (fun target => (Path.parse target.path, target.weight.map Expr.lower))) =
      targets.mapM (Target.find repeats) := by
  induction targets with
  | nil => rfl
  | cons target rest ih =>
      simp only [List.map_cons, readPortions, List.mapM_cons, Target.find, bind_assoc, pure_bind, ih]
      refine bind_congr fun before => ?_
      cases target.weight with
      | none => rfl
      | some weight => simp only [Option.map_some, lowered_current, bind_assoc, pure_bind]

theorem written_portions (amount : Float) (shareOf : Portion → Float) (portions : List Portion) :
    writePortions amount shareOf portions = portions.forM (fun portion =>
      if portion.before != 0.0 then
        Running.set portion.path (portion.before + amount * shareOf portion)
      else pure ()) := by
  induction portions with
  | nil => rfl
  | cons portion rest ih =>
      rw [writePortions, ih, List.forM_eq_forM, List.forM_cons]
      cases portion.before != 0.0
      · exact (pure_bind _ _).symm
      · rfl

theorem lowered_statement (repeats : Nat) (kind : StatementKind) :
    kind.lower.run repeats = kind.perform repeats := by
  cases kind with
  | definition name value =>
      simp only [StatementKind.lower, Instruction.run, StatementKind.perform, lowered_current]
  | assignment target value =>
      simp only [StatementKind.lower, Instruction.run, StatementKind.perform, lowered_current]
  | limit target lower upper =>
      simp only [StatementKind.lower, Instruction.run, StatementKind.perform, lowered_bound]
  | distribute value targets split =>
      simp only [StatementKind.lower, Instruction.run, StatementKind.perform, lowered_current,
        lowered_targets, written_portions]
  | change target delta start finish =>
      simp only [StatementKind.lower, Instruction.run, StatementKind.perform, lowered_current]
  | inspect label value =>
      simp only [StatementKind.lower, Instruction.run, StatementKind.perform, lowered_current]

theorem lowered_statements (repeats : Nat) (statements : List Statement) :
    runAll repeats (statements.map (fun statement => statement.kind.lower)) =
      interpret repeats statements := by
  induction statements with
  | nil => rfl
  | cons statement rest ih =>
      rw [List.map_cons, runAll, lowered_statement, ih]
      rfl

end Script

/-- A text with a program does what its tree says. -/
theorem compiled_scripts_mean_their_trees {limits : ScriptLimits} {source : String} {program : Program}
    (compiled : compile limits source = .program program) :
    ∃ statements, Script.parse limits.depth source = .ok statements ∧
      program.run = Script.interpret limits.repeats statements := by
  unfold compile at compiled
  split at compiled
  · cases compiled
  · cases read : Script.parse limits.depth source with
    | error error =>
        rw [read] at compiled
        cases compiled
    | ok statements =>
        rw [read] at compiled
        change compileStatements limits statements = _ at compiled
        unfold compileStatements at compiled
        split at compiled
        · split at compiled
          · cases compiled
          · cases compiled
            exact ⟨statements, rfl, Script.lowered_statements limits.repeats statements⟩
        · cases compiled

/-- A tree without structural faults becomes a program that does to every world what the tree says:
the same result or first failure, in the same state and at the same place of its source. -/
theorem lowered_scripts_mean_their_trees (limits : ScriptLimits) (statements : List Script.Statement)
    (accepted : (compileStatements limits statements).isOk = true) :
    (statements ≠ [] →
      compileStatements limits statements = .program (.ofStatements limits.repeats statements)) ∧
    ∀ world, (Program.ofStatements limits.repeats statements).run world =
      Script.interpret limits.repeats statements world := by
  constructor
  · intro some
    rw [compileStatements, compile_statements_ok_iff.mp accepted]
    exact if_neg (by simpa using some)
  · intro world
    exact congrFun (Script.lowered_statements limits.repeats statements) world

/-- Draws three times, then asks for two lifetimes of which the second has an unknown attribute. -/
def lifetimeTree : List Script.Statement :=
  [⟨⟨0, 10⟩, .definition "noise" (.repeated .average (.number 3.0) (.uniform (.number 0.0) (.number 1.0)))⟩,
    ⟨⟨10, 20⟩, .assignment "in.recyclingDelay" (.binary .add (.path "noise") (.number 2.0))⟩,
    ⟨⟨20, 30⟩, .inspect "lifecycleof[out.china.eolRecyclingMT]"
      (.lifecycle ["out.china.eolRecyclingMT"])⟩,
    ⟨⟨30, 40⟩, .assignment "noise" (.lifecycle ["out.china.eolRecyclingMT", "out.china.population"])⟩]

theorem lifetime_tree_is_read :
    (compileStatements ⟨500, 10⟩ lifetimeTree).isOk = true ∧
    failure? ((Program.ofStatements 10 lifetimeTree).run ⟨.forYear 2030, .cycle [3, 5, 7]⟩) =
      some (.unknownLifecycle "out.china.population") ∧
    (Program.ofStatements 10 lifetimeTree).run ⟨.forYear 2030, .cycle [3, 5, 7]⟩ =
      Script.interpret 10 lifetimeTree ⟨.forYear 2030, .cycle [3, 5, 7]⟩ := by
  have accepted : (compileStatements ⟨500, 10⟩ lifetimeTree).isOk = true := by decide +kernel
  exact ⟨accepted, by decide +kernel,
    (lowered_scripts_mean_their_trees ⟨500, 10⟩ lifetimeTree accepted).2 _⟩

end PolicyLevers
