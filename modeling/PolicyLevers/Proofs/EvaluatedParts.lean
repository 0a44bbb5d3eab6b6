import PolicyLevers.Proofs.AtomicStatements

/-!
# What a run evaluates

A run evaluates some parts of its program, some of them many times.  `visits` lists each evaluation
with the place of the part in the program and with the world it starts in.  A part can be exchanged for
another one if the two agree wherever the run evaluates the part.
-/

namespace PolicyLevers

set_option autoImplicit false

open Running

/-! ## Places -/

inductive PlaceStep where
  | instruction (index : Nat)
  /-- The expression of an instruction that has one; the amount of a distribution. -/
  | value
  | lower
  | upper
  | weight (index : Nat)
  | delta
  | start
  | finish
  /-- The operand that is evaluated first: a left side, a lower bound, a mean, a count. -/
  | first
  /-- The other operand: a right side, an upper bound, a deviation, a repeated body. -/
  | second
  | consequent
  | alternative
  deriving DecidableEq, Repr

/-- Changes the part at a place.  A place that leads nowhere changes nothing. -/
def Expression.modify (change : Expression → Expression) : List PlaceStep → Expression → Expression
  | [], expression => change expression
  | .first :: rest, .binary op left right => .binary op (left.modify change rest) right
  | .second :: rest, .binary op left right => .binary op left (right.modify change rest)
  | .first :: rest, .conditional test left right consequent alternative =>
    .conditional test (left.modify change rest) right consequent alternative
  | .second :: rest, .conditional test left right consequent alternative =>
    .conditional test left (right.modify change rest) consequent alternative
  | .consequent :: rest, .conditional test left right consequent alternative =>
    .conditional test left right (consequent.modify change rest) alternative
  | .alternative :: rest, .conditional test left right consequent alternative =>
    .conditional test left right consequent (alternative.modify change rest)
  | .first :: rest, .uniform low high => .uniform (low.modify change rest) high
  | .second :: rest, .uniform low high => .uniform low (high.modify change rest)
  | .first :: rest, .normal mean deviation => .normal (mean.modify change rest) deviation
  | .second :: rest, .normal mean deviation => .normal mean (deviation.modify change rest)
  | .first :: rest, .repeated reducer count body => .repeated reducer (count.modify change rest) body
  | .second :: rest, .repeated reducer count body => .repeated reducer count (body.modify change rest)
  | _ :: _, expression => expression

def Instruction.modify (change : Expression → Expression) : List PlaceStep → Instruction → Instruction
  | .value :: rest, .define name value => .define name (value.modify change rest)
  | .value :: rest, .assign target value => .assign target (value.modify change rest)
  | .lower :: rest, .limit target lower upper =>
    .limit target (lower.map (Expression.modify change rest)) upper
  | .upper :: rest, .limit target lower upper =>
    .limit target lower (upper.map (Expression.modify change rest))
  | .value :: rest, .distribute value targets split =>
    .distribute (value.modify change rest) targets split
  | .weight index :: rest, .distribute value targets split =>
    .distribute value
      (targets.modify index (fun target => (target.1, target.2.map (Expression.modify change rest)))) split
  | .delta :: rest, .change target delta start finish =>
    .change target (delta.modify change rest) start finish
  | .start :: rest, .change target delta start finish =>
    .change target delta (start.modify change rest) finish
  | .finish :: rest, .change target delta start finish =>
    .change target delta start (finish.modify change rest)
  | .value :: rest, .inspect label value => .inspect label (value.modify change rest)
  | _, instruction => instruction

def Program.modify (change : Expression → Expression) : List PlaceStep → Program → Program
  | .instruction index :: rest, program =>
    { program with instructions := program.instructions.modify index (Instruction.modify change rest) }
  | _, program => program

/-! ## Visits -/

/-- One evaluation of a part: its place, the part, and the world at that moment. -/
structure Visit where
  place : List PlaceStep
  part : Expression
  world : World

def under (step : PlaceStep) (visits : List Visit) : List Visit :=
  visits.map (fun visit => { visit with place := step :: visit.place })

def onward {ε σ α β : Type} (computation : EStateM ε σ α) (later : α → σ → List β) (start : σ) : List β :=
  match computation start with
  | .ok value after => later value after
  | .error _ _ => []

def repeatVisits (body : Drawing Float) (visits : Random.WordSource → List Visit) :
    Nat → Random.WordSource → List Visit
  | 0, _ => []
  | count + 1, source => visits source ++ onward body (fun _ => repeatVisits body visits count) source

def operandVisits (first second : Drawing Float) (firstVisits secondVisits : Random.WordSource → List Visit)
    (further : Float → Float → Random.WordSource → List Visit) (source : Random.WordSource) : List Visit :=
  under .first (firstVisits source) ++ onward first (fun firstValue source =>
    under .second (secondVisits source) ++ onward second (further firstValue) source) source

def Expression.visits (repeatLimit : Nat) (state : State) :
    Expression → Random.WordSource → List Visit
  | .number value, source => [⟨[], .number value, ⟨state, source⟩⟩]
  | .read path, source => [⟨[], .read path, ⟨state, source⟩⟩]
  | .binary op left right, source =>
    ⟨[], .binary op left right, ⟨state, source⟩⟩ ::
      operandVisits (left.evaluate repeatLimit state) (right.evaluate repeatLimit state)
        (left.visits repeatLimit state) (right.visits repeatLimit state) (fun _ _ _ => []) source
  | .conditional test left right consequent alternative, source =>
    ⟨[], .conditional test left right consequent alternative, ⟨state, source⟩⟩ ::
      operandVisits (left.evaluate repeatLimit state) (right.evaluate repeatLimit state)
        (left.visits repeatLimit state) (right.visits repeatLimit state)
        (fun leftValue rightValue source =>
          if test.holds leftValue rightValue then
            under .consequent (consequent.visits repeatLimit state source)
          else under .alternative (alternative.visits repeatLimit state source)) source
  | .lifecycle query, source => [⟨[], .lifecycle query, ⟨state, source⟩⟩]
  | .uniform low high, source =>
    ⟨[], .uniform low high, ⟨state, source⟩⟩ ::
      operandVisits (low.evaluate repeatLimit state) (high.evaluate repeatLimit state)
        (low.visits repeatLimit state) (high.visits repeatLimit state) (fun _ _ _ => []) source
  | .normal mean deviation, source =>
    ⟨[], .normal mean deviation, ⟨state, source⟩⟩ ::
      operandVisits (mean.evaluate repeatLimit state) (deviation.evaluate repeatLimit state)
        (mean.visits repeatLimit state) (deviation.visits repeatLimit state) (fun _ _ _ => []) source
  | .repeated reducer count body, source =>
    ⟨[], .repeated reducer count body, ⟨state, source⟩⟩ ::
      (under .first (count.visits repeatLimit state source) ++
        onward (count.evaluate repeatLimit state) (fun countValue source =>
          match repetitions? repeatLimit countValue with
          | none => []
          | some repetitions =>
            under .second (repeatVisits (body.evaluate repeatLimit state)
              (body.visits repeatLimit state) repetitions source)) source)

def Expression.compute (repeatLimit : Nat) (expression : Expression) : Running Float :=
  reading (fun state => expression.evaluate repeatLimit state)

def Expression.visitsAs (repeatLimit : Nat) (step : PlaceStep) (expression : Expression) (world : World) :
    List Visit :=
  under step (expression.visits repeatLimit world.state world.source)

def optionalVisits (repeatLimit : Nat) (step : PlaceStep) (expression : Option Expression) (world : World) :
    List Visit :=
  expression.elim [] (fun expression => expression.visitsAs repeatLimit step world)

def portionVisits (repeatLimit : Nat) : Nat → List (Path × Option Expression) → World → List Visit
  | _, [], _ => []
  | index, (path, weight) :: rest, world =>
    onward (Running.get path) (fun before world =>
      optionalVisits repeatLimit (.weight index) weight world ++
        onward (weigh repeatLimit before weight)
          (fun _ => portionVisits repeatLimit (index + 1) rest) world) world

def Instruction.visits (repeatLimit : Nat) : Instruction → World → List Visit
  | .define _ value, world => value.visitsAs repeatLimit .value world
  | .assign _ value, world => value.visitsAs repeatLimit .value world
  | .limit _ lower upper, world =>
    optionalVisits repeatLimit .lower lower world ++
      onward (evaluateOptional repeatLimit lower)
        (fun _ => optionalVisits repeatLimit .upper upper) world
  | .distribute value targets _, world =>
    value.visitsAs repeatLimit .value world ++
      onward (value.compute repeatLimit) (fun amount world =>
        if amount.abs < distributeThreshold then [] else portionVisits repeatLimit 0 targets world) world
  | .change _ delta start finish, world =>
    delta.visitsAs repeatLimit .delta world ++
      onward (delta.compute repeatLimit) (fun _ world =>
        start.visitsAs repeatLimit .start world ++
          onward (start.compute repeatLimit) (fun _ => finish.visitsAs repeatLimit .finish) world) world
  | .inspect _ value, world => value.visitsAs repeatLimit .value world

def runVisits (repeatLimit : Nat) : Nat → List Instruction → World → List Visit
  | _, [], _ => []
  | index, instruction :: rest, world =>
    under (.instruction index) (instruction.visits repeatLimit world) ++
      onward (instruction.run repeatLimit) (fun _ => runVisits repeatLimit (index + 1) rest) world

def Program.visits (program : Program) (world : World) : List Visit :=
  runVisits program.repeatLimit 0 program.instructions world

/-! ## Exchanged parts -/

section Exchange

variable {ε σ α β : Type}

/-- Two computations that go the same way from one state. -/
theorem bind_congr_at {first other : EStateM ε σ α} {next further : α → EStateM ε σ β} {start : σ}
    (here : first start = other start)
    (later : ∀ value after, first start = .ok value after → next value after = further value after) :
    (first >>= next) start = (other >>= further) start := by
  change EStateM.bind first next start = EStateM.bind other further start
  unfold EStateM.bind
  rw [← here]
  cases outcome : first start with
  | ok value after => exact later value after outcome
  | error halt after => rfl

variable {repeatLimit : Nat} {change : Expression → Expression} {place : List PlaceStep}

/-- The changed part evaluates the same at each of its visits at a place. -/
def Agrees (repeatLimit : Nat) (change : Expression → Expression) (place : List PlaceStep)
    (visits : List Visit) : Prop :=
  ∀ visit ∈ visits, visit.place = place →
    (change visit.part).evaluate repeatLimit visit.world.state visit.world.source =
      visit.part.evaluate repeatLimit visit.world.state visit.world.source

theorem agrees_append {visits others : List Visit} :
    Agrees repeatLimit change place (visits ++ others) ↔
      Agrees repeatLimit change place visits ∧ Agrees repeatLimit change place others := by
  simp only [Agrees, List.mem_append, or_imp, forall_and]

theorem agrees_cons {visit : Visit} {visits : List Visit} :
    Agrees repeatLimit change place (visit :: visits) ↔
      Agrees repeatLimit change place [visit] ∧ Agrees repeatLimit change place visits := by
  rw [← agrees_append, List.singleton_append]

theorem agrees_under {step : PlaceStep} {visits : List Visit} :
    Agrees repeatLimit change (step :: place) (under step visits) ↔
      Agrees repeatLimit change place visits := by
  simp [Agrees, under]

theorem Agrees.onward {computation : EStateM ε σ α} {later : α → σ → List Visit} {start after : σ}
    {value : α} (agrees : Agrees repeatLimit change place (onward computation later start))
    (done : computation start = .ok value after) :
    Agrees repeatLimit change place (later value after) := by
  simpa only [PolicyLevers.onward, done] using agrees

end Exchange

theorem accumulate_congr {repeatLimit : Nat} {change : Expression → Expression}
    {place : List PlaceStep} {body changed : Drawing Float} {visits : Random.WordSource → List Visit}
    (same : ∀ source, Agrees repeatLimit change place (visits source) → changed source = body source)
    (reducer : Script.Reducer) {count : Nat} (total : Float) {source : Random.WordSource}
    (agrees : Agrees repeatLimit change place (repeatVisits body visits count source)) :
    accumulate reducer changed count total source = accumulate reducer body count total source := by
  induction count generalizing total source with
  | zero => rfl
  | succ count ih =>
      obtain ⟨here, later⟩ := agrees_append.mp agrees
      have unchanged := same source here
      apply bind_congr_at unchanged
      intro value after done
      exact ih (reducer.step total value) (later.onward (unchanged.symm.trans done))

section Operands

variable {repeatLimit : Nat} {change : Expression → Expression} {place : List PlaceStep}
  {first second changed : Drawing Float} {firstVisits secondVisits : Random.WordSource → List Visit}
  {followed : Float → Float → Random.WordSource → List Visit} {source : Random.WordSource}

theorem first_operand_congr
    (same : ∀ source, Agrees repeatLimit change place (firstVisits source) → changed source = first source)
    (agrees : Agrees repeatLimit change (.first :: place)
      (operandVisits first second firstVisits secondVisits followed source))
    (next : Float → Drawing Float) : (changed >>= next) source = (first >>= next) source := by
  obtain ⟨here, _⟩ := agrees_append.mp agrees
  have unchanged := same source (agrees_under.mp here)
  exact bind_congr_at unchanged (fun _ _ _ => rfl)

theorem second_operand_congr
    (same : ∀ source, Agrees repeatLimit change place (secondVisits source) →
      changed source = second source)
    (agrees : Agrees repeatLimit change (.second :: place)
      (operandVisits first second firstVisits secondVisits followed source))
    (next : Float → Float → Drawing Float) :
    (first >>= fun value => changed >>= next value) source =
      (first >>= fun value => second >>= next value) source := by
  obtain ⟨_, rest⟩ := agrees_append.mp agrees
  apply bind_congr_at rfl
  intro value after done
  obtain ⟨here, _⟩ := agrees_append.mp (rest.onward done)
  have unchanged := same after (agrees_under.mp here)
  exact bind_congr_at unchanged (fun _ _ _ => rfl)

theorem operands_agree_onward {firstValue secondValue : Float} {middle after : Random.WordSource}
    (agrees : Agrees repeatLimit change place
      (operandVisits first second firstVisits secondVisits followed source))
    (firstDone : first source = .ok firstValue middle) (secondDone : second middle = .ok secondValue after) :
    Agrees repeatLimit change place (followed firstValue secondValue after) := by
  obtain ⟨_, rest⟩ := agrees_append.mp agrees
  obtain ⟨_, last⟩ := agrees_append.mp (rest.onward firstDone)
  exact last.onward secondDone

end Operands

/-- A part may be exchanged for one that agrees with it wherever it is evaluated. -/
theorem evaluate_modify {repeatLimit : Nat} {change : Expression → Expression} {state : State}
    {place : List PlaceStep} (expression : Expression) (source : Random.WordSource)
    (agrees : Agrees repeatLimit change place (expression.visits repeatLimit state source)) :
    (expression.modify change place).evaluate repeatLimit state source =
      expression.evaluate repeatLimit state source := by
  induction expression generalizing place source with
  | number value =>
      cases place with
      | nil => exact agrees _ (List.mem_singleton_self _) rfl
      | cons step rest => cases step <;> rfl
  | read path =>
      cases place with
      | nil => exact agrees _ (List.mem_singleton_self _) rfl
      | cons step rest => cases step <;> rfl
  | lifecycle query =>
      cases place with
      | nil => exact agrees _ (List.mem_singleton_self _) rfl
      | cons step rest => cases step <;> rfl
  | binary op left right leftSame rightSame =>
      obtain ⟨root, operands⟩ := agrees_cons.mp agrees
      rcases place with _ | ⟨step, rest⟩
      · exact root _ (List.mem_singleton_self _) rfl
      cases step with
      | first => exact first_operand_congr leftSame operands _
      | second => exact second_operand_congr rightSame operands _
      | _ => rfl
  | uniform low high lowSame highSame =>
      obtain ⟨root, operands⟩ := agrees_cons.mp agrees
      rcases place with _ | ⟨step, rest⟩
      · exact root _ (List.mem_singleton_self _) rfl
      cases step with
      | first => exact first_operand_congr lowSame operands _
      | second => exact second_operand_congr highSame operands _
      | _ => rfl
  | normal mean deviation meanSame deviationSame =>
      obtain ⟨root, operands⟩ := agrees_cons.mp agrees
      rcases place with _ | ⟨step, rest⟩
      · exact root _ (List.mem_singleton_self _) rfl
      cases step with
      | first => exact first_operand_congr meanSame operands _
      | second => exact second_operand_congr deviationSame operands _
      | _ => rfl
  | conditional test left right consequent alternative leftSame rightSame consequentSame
      alternativeSame =>
      obtain ⟨root, operands⟩ := agrees_cons.mp agrees
      rcases place with _ | ⟨step, rest⟩
      · exact root _ (List.mem_singleton_self _) rfl
      cases step with
      | first => exact first_operand_congr leftSame operands _
      | second => exact second_operand_congr rightSame operands _
      | consequent =>
          -- both sides of the test go their old way, so the same branch is taken
          apply bind_congr_at rfl
          intro leftValue middle leftDone
          apply bind_congr_at rfl
          intro rightValue after rightDone
          have branches := operands_agree_onward operands leftDone rightDone
          by_cases holds : test.holds leftValue rightValue = true
          · simp only [holds, if_true] at branches ⊢
            exact consequentSame after (agrees_under.mp branches)
          · simp only [holds]
            rfl
      | alternative =>
          apply bind_congr_at rfl
          intro leftValue middle leftDone
          apply bind_congr_at rfl
          intro rightValue after rightDone
          have branches := operands_agree_onward operands leftDone rightDone
          by_cases holds : test.holds leftValue rightValue = true
          · simp only [holds, if_true]
          · simp only [holds] at branches ⊢
            exact alternativeSame after (agrees_under.mp branches)
      | _ => rfl
  | repeated reducer count body countSame bodySame =>
      obtain ⟨root, parts⟩ := agrees_cons.mp agrees
      rcases place with _ | ⟨step, rest⟩
      · exact root _ (List.mem_singleton_self _) rfl
      obtain ⟨early, late⟩ := agrees_append.mp parts
      cases step with
      | first => exact bind_congr_at (countSame source (agrees_under.mp early)) (fun _ _ _ => rfl)
      | second =>
          apply bind_congr_at rfl
          intro countValue after done
          have visits := late.onward done
          cases found : repetitions? repeatLimit countValue with
          | none => rfl
          | some repetitions =>
              simp only [found] at visits
              have same := accumulate_congr bodySame reducer reducer.start (agrees_under.mp visits)
              exact bind_congr_at same (fun _ _ _ => rfl)
      | _ => rfl

section Run

variable {repeatLimit : Nat} {change : Expression → Expression} {rest : List PlaceStep} {step : PlaceStep}

theorem compute_modify {expression : Expression} {world : World}
    (agrees : Agrees repeatLimit change (step :: rest) (expression.visitsAs repeatLimit step world)) :
    (expression.modify change rest).compute repeatLimit world = expression.compute repeatLimit world := by
  have same := evaluate_modify expression world.source (agrees_under.mp agrees)
  simp only [Expression.compute, reading, same]

theorem evaluate_optional_modify {expression : Option Expression} {world : World}
    (agrees : Agrees repeatLimit change (step :: rest) (optionalVisits repeatLimit step expression world)) :
    evaluateOptional repeatLimit (expression.map (Expression.modify change rest)) world =
      evaluateOptional repeatLimit expression world := by
  cases expression with
  | none => rfl
  | some expression => exact bind_congr_at (compute_modify agrees) (fun _ _ _ => rfl)

theorem weigh_modify {weight : Option Expression} {world : World} (before : Float)
    (agrees : Agrees repeatLimit change (step :: rest) (optionalVisits repeatLimit step weight world)) :
    weigh repeatLimit before (weight.map (Expression.modify change rest)) world =
      weigh repeatLimit before weight world := by
  cases weight with
  | none => rfl
  | some weight => exact compute_modify agrees

theorem read_portions_modify {targets : List (Path × Option Expression)} {index offset : Nat}
    {world : World}
    (agrees : Agrees repeatLimit change (.weight (offset + index) :: rest)
      (portionVisits repeatLimit offset targets world)) :
    readPortions repeatLimit
        (targets.modify index (fun target => (target.1, target.2.map (Expression.modify change rest)))) world =
      readPortions repeatLimit targets world := by
  induction targets generalizing index offset world with
  | nil => rw [List.modify_nil]
  | cons target targets ih =>
      obtain ⟨path, weight⟩ := target
      -- the targets in front of the changed one are read as before; `offset` counts them
      cases index with
      | zero =>
          rw [List.modify_zero_cons, read_portions_cons, read_portions_cons]
          apply bind_congr_at rfl
          intro before ready read
          obtain ⟨here, _⟩ := agrees_append.mp (agrees.onward read)
          exact bind_congr_at (weigh_modify before here) (fun _ _ _ => rfl)
      | succ index =>
          rw [List.modify_succ_cons, read_portions_cons, read_portions_cons]
          apply bind_congr_at rfl
          intro before ready read
          obtain ⟨_, others⟩ := agrees_append.mp (agrees.onward read)
          apply bind_congr_at rfl
          intro weight after weighed
          rw [← Nat.succ_add_eq_add_succ] at others
          exact bind_congr_at (ih (others.onward weighed)) (fun _ _ _ => rfl)

theorem instruction_modify {instruction : Instruction} {place : List PlaceStep} {world : World}
    (agrees : Agrees repeatLimit change place (instruction.visits repeatLimit world)) :
    (instruction.modify change place).run repeatLimit world = instruction.run repeatLimit world := by
  rcases place with _ | ⟨step, rest⟩
  · cases instruction <;> rfl
  cases instruction with
  | define name value =>
      cases step with
      | value => exact bind_congr_at (compute_modify agrees) (fun _ _ _ => rfl)
      | _ => rfl
  | assign target value =>
      cases step with
      | value => exact bind_congr_at (compute_modify agrees) (fun _ _ _ => rfl)
      | _ => rfl
  | inspect label value =>
      cases step with
      | value => exact bind_congr_at (compute_modify agrees) (fun _ _ _ => rfl)
      | _ => rfl
  | limit target lower upper =>
      obtain ⟨early, late⟩ := agrees_append.mp agrees
      cases step with
      | lower => exact bind_congr_at (evaluate_optional_modify early) (fun _ _ _ => rfl)
      | upper =>
          apply bind_congr_at rfl
          intro lower after done
          exact bind_congr_at (evaluate_optional_modify (late.onward done)) (fun _ _ _ => rfl)
      | _ => rfl
  | distribute value targets split =>
      obtain ⟨early, late⟩ := agrees_append.mp agrees
      cases step with
      | value => exact bind_congr_at (compute_modify early) (fun _ _ _ => rfl)
      | weight index =>
          apply bind_congr_at rfl
          intro amount after done
          have weights := late.onward done
          by_cases small : amount.abs < distributeThreshold
          · simp only [small, if_true]
          · simp only [small, if_false] at weights ⊢
            rw [← Nat.zero_add index] at weights
            exact bind_congr_at (read_portions_modify weights) (fun _ _ _ => rfl)
      | _ => rfl
  | change target delta start finish =>
      obtain ⟨early, late⟩ := agrees_append.mp agrees
      cases step with
      | delta => exact bind_congr_at (compute_modify early) (fun _ _ _ => rfl)
      | start =>
          apply bind_congr_at rfl
          intro delta middle deltaDone
          obtain ⟨here, _⟩ := agrees_append.mp (late.onward deltaDone)
          exact bind_congr_at (compute_modify here) (fun _ _ _ => rfl)
      | finish =>
          apply bind_congr_at rfl
          intro delta middle deltaDone
          obtain ⟨_, last⟩ := agrees_append.mp (late.onward deltaDone)
          apply bind_congr_at rfl
          intro start after startDone
          exact bind_congr_at (compute_modify (last.onward startDone)) (fun _ _ _ => rfl)
      | _ => rfl

theorem run_all_modify {instructions : List Instruction} {index offset : Nat} {world : World}
    (agrees : Agrees repeatLimit change (.instruction (offset + index) :: rest)
      (runVisits repeatLimit offset instructions world)) :
    runAll repeatLimit (instructions.modify index (Instruction.modify change rest)) world =
      runAll repeatLimit instructions world := by
  induction instructions generalizing index offset world with
  | nil => rw [List.modify_nil]
  | cons instruction instructions ih =>
      obtain ⟨early, late⟩ := agrees_append.mp agrees
      cases index with
      | zero =>
          rw [List.modify_zero_cons]
          exact bind_congr_at (instruction_modify (agrees_under.mp early)) (fun _ _ _ => rfl)
      | succ index =>
          rw [List.modify_succ_cons]
          apply bind_congr_at rfl
          intro _ after done
          rw [← Nat.succ_add_eq_add_succ] at late
          exact ih (late.onward done)

end Run

/-- A run goes the same way after a part was exchanged for one that agrees with it at each of its visits. -/
theorem run_modify {program : Program} {change : Expression → Expression} {place : List PlaceStep}
    {world : World} (agrees : Agrees program.repeatLimit change place (program.visits world)) :
    (program.modify change place).run world = program.run world := by
  rcases place with _ | ⟨step, rest⟩
  · rfl
  cases step with
  | instruction index =>
      unfold Program.visits at agrees
      rw [← Nat.zero_add index] at agrees
      exact run_all_modify agrees
  | _ => rfl

end PolicyLevers
