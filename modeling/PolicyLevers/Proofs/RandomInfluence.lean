import PolicyLevers.Proofs.EvaluatedParts

/-!
# Where randomness enters a run

Random words reach a run through the draws that it evaluates and nowhere else.  Without a draw in its
text a program ends the same way under every source and takes no word from it.  A branch that is never
taken has no influence at all, whatever stands in it.
-/

namespace PolicyLevers

set_option autoImplicit false

open Running

/-! ## Programs without draws -/

/-- The expression has no draw in it, evaluated or not. -/
def Expression.drawFree : Expression → Bool
  | .number _ => true
  | .read _ => true
  | .binary _ left right => left.drawFree && right.drawFree
  | .conditional _ left right consequent alternative =>
    left.drawFree && right.drawFree && consequent.drawFree && alternative.drawFree
  | .lifecycle _ => true
  | .uniform _ _ => false
  | .normal _ _ => false
  | .repeated _ count body => count.drawFree && body.drawFree

def Instruction.operands : Instruction → List Expression
  | .define _ value => [value]
  | .assign _ value => [value]
  | .limit _ lower upper => lower.toList ++ upper.toList
  | .distribute value targets _ => value :: targets.filterMap Prod.snd
  | .change _ delta start finish => [delta, start, finish]
  | .inspect _ value => [value]

def Program.drawFree (program : Program) : Bool :=
  program.instructions.all (fun instruction => instruction.operands.all Expression.drawFree)

def ended {ε σ α : Type} (result : Except ε α) (after : σ) : EStateM.Result ε σ α :=
  match result with
  | .ok value => .ok value after
  | .error error => .error error after

/-- The computation has one result for all sources and takes no word. -/
def Drawing.Undrawn {α : Type} (computation : Drawing α) : Prop :=
  ∃ result, ∀ source, computation source = ended result source

def Running.Undrawn {α : Type} (computation : Running α) : Prop :=
  ∀ state, ∃ result after, ∀ source, computation ⟨state, source⟩ = ended result ⟨after, source⟩

section Undrawn

variable {α β : Type}

theorem undrawn_value (value : α) : Drawing.Undrawn (pure value) := ⟨.ok value, fun _ => rfl⟩

theorem undrawn_failure (halt : Halt RuntimeError) : Drawing.Undrawn (throw halt : Drawing α) :=
  ⟨.error halt, fun _ => rfl⟩

theorem undrawn_of_except (result : Except RuntimeError α) : (Drawing.ofExcept result).Undrawn := by
  cases result with
  | ok value => exact undrawn_value value
  | error error => exact undrawn_failure (.failure error)

theorem Drawing.Undrawn.bind {first : Drawing α} {next : α → Drawing β} (here : first.Undrawn)
    (later : ∀ value, (next value).Undrawn) : Drawing.Undrawn (first >>= next) := by
  obtain ⟨result, outcome⟩ := here
  cases result with
  | ok value =>
      obtain ⟨last, final⟩ := later value
      refine ⟨last, fun source => ?_⟩
      exact (bind_of_ok (outcome source) next).trans (final source)
  | error halt =>
      exact ⟨.error halt, fun source => bind_of_error (outcome source) next⟩

theorem accumulate_undrawn {body : Drawing Float} (undrawn : body.Undrawn) (reducer : Script.Reducer)
    (count : Nat) (total : Float) : (accumulate reducer body count total).Undrawn := by
  induction count generalizing total with
  | zero => exact undrawn_value total
  | succ count ih => exact undrawn.bind (fun value => ih (reducer.step total value))

theorem evaluate_undrawn (repeatLimit : Nat) (state : State) {expression : Expression}
    (free : expression.drawFree = true) : (expression.evaluate repeatLimit state).Undrawn := by
  induction expression with
  | number value => exact undrawn_value value
  | read path => exact undrawn_of_except (state.get path)
  | lifecycle query => exact undrawn_of_except (query.evaluate state)
  | uniform low high => cases free
  | normal mean deviation => cases free
  | binary op left right leftUndrawn rightUndrawn =>
      simp only [Expression.drawFree, Bool.and_eq_true] at free
      exact (leftUndrawn free.1).bind fun _ => (rightUndrawn free.2).bind fun _ => undrawn_value _
  | conditional test left right consequent alternative leftUndrawn rightUndrawn consequentUndrawn
      alternativeUndrawn =>
      simp only [Expression.drawFree, Bool.and_eq_true] at free
      obtain ⟨⟨⟨leftFree, rightFree⟩, consequentFree⟩, alternativeFree⟩ := free
      apply (leftUndrawn leftFree).bind
      intro leftValue
      apply (rightUndrawn rightFree).bind
      intro rightValue
      by_cases holds : test.holds leftValue rightValue = true
      · rw [if_pos holds]
        exact consequentUndrawn consequentFree
      · rw [if_neg holds]
        exact alternativeUndrawn alternativeFree
  | repeated reducer count body countUndrawn bodyUndrawn =>
      simp only [Expression.drawFree, Bool.and_eq_true] at free
      apply (countUndrawn free.1).bind
      intro countValue
      cases repetitions? repeatLimit countValue with
      | none => exact undrawn_failure _
      | some repetitions =>
          exact (accumulate_undrawn (bodyUndrawn free.2) reducer repetitions reducer.start).bind
            (fun total => undrawn_value _)

theorem undrawn_pure (value : α) : Running.Undrawn (pure value) := fun state => ⟨.ok value, state, fun _ => rfl⟩

theorem undrawn_throw (halt : Halt RuntimeError) : Running.Undrawn (throw halt : Running α) :=
  fun state => ⟨.error halt, state, fun _ => rfl⟩

theorem undrawn_reading {read : State → Drawing α} (undrawn : ∀ state, (read state).Undrawn) :
    Running.Undrawn (reading read) := by
  intro state
  obtain ⟨result, outcome⟩ := undrawn state
  refine ⟨result, state, fun source => ?_⟩
  simp only [reading, outcome source]
  cases result <;> rfl

theorem undrawn_writing (write : State → Except RuntimeError State) : Running.Undrawn (writing write) := by
  intro state
  cases stored : write state with
  | ok after => exact ⟨.ok (), after, fun source => by simp [writing, stored, ended]⟩
  | error error => exact ⟨.error (.failure error), state, fun source => by simp [writing, stored, ended]⟩

theorem Running.Undrawn.bind {first : Running α} {next : α → Running β} (here : first.Undrawn)
    (later : ∀ value, (next value).Undrawn) : Running.Undrawn (first >>= next) := by
  intro state
  obtain ⟨result, middle, outcome⟩ := here state
  cases result with
  | ok value =>
      obtain ⟨last, after, final⟩ := later value middle
      refine ⟨last, after, fun source => ?_⟩
      exact (bind_of_ok (outcome source) next).trans (final source)
  | error halt =>
      exact ⟨.error halt, middle, fun source => bind_of_error (outcome source) next⟩

theorem undrawn_get (path : Path) : (Running.get path).Undrawn :=
  undrawn_reading (fun state => undrawn_of_except (state.get path))

theorem undrawn_set (path : Path) (value : Float) : (Running.set path value).Undrawn := undrawn_writing _

variable {repeatLimit : Nat}

theorem compute_undrawn {expression : Expression} (free : expression.drawFree = true) :
    (expression.compute repeatLimit).Undrawn :=
  undrawn_reading (fun state => evaluate_undrawn repeatLimit state free)

theorem evaluate_optional_undrawn {expression : Option Expression}
    (free : ∀ present ∈ expression, present.drawFree = true) :
    (evaluateOptional repeatLimit expression).Undrawn := by
  cases expression with
  | none => exact undrawn_pure none
  | some expression => exact (compute_undrawn (free expression rfl)).bind (fun value => undrawn_pure (some value))

theorem weigh_undrawn (before : Float) {weight : Option Expression}
    (free : ∀ present ∈ weight, present.drawFree = true) : (weigh repeatLimit before weight).Undrawn := by
  cases weight with
  | none => exact undrawn_pure before
  | some weight => exact compute_undrawn (free weight rfl)

theorem read_portions_undrawn {targets : List (Path × Option Expression)}
    (free : ∀ target ∈ targets, ∀ present ∈ target.2, present.drawFree = true) :
    (readPortions repeatLimit targets).Undrawn := by
  induction targets with
  | nil => exact undrawn_pure []
  | cons target rest ih =>
      obtain ⟨path, weight⟩ := target
      rw [read_portions_cons]
      apply (undrawn_get path).bind
      intro before
      apply (weigh_undrawn before (free _ List.mem_cons_self)).bind
      intro weight
      exact (ih (fun target member => free target (List.mem_cons_of_mem _ member))).bind
        (fun portions => undrawn_pure _)

theorem write_portions_undrawn (amount : Float) (shareOf : Portion → Float) (portions : List Portion) :
    (writePortions amount shareOf portions).Undrawn := by
  induction portions with
  | nil => exact undrawn_pure ()
  | cons portion rest ih =>
      rw [write_portions_cons]
      split
      · exact (undrawn_set portion.path _).bind (fun _ => ih)
      · exact ih

theorem instruction_undrawn {instruction : Instruction}
    (free : ∀ operand ∈ instruction.operands, operand.drawFree = true) :
    (instruction.run repeatLimit).Undrawn := by
  cases instruction with
  | define name value =>
      exact (compute_undrawn (free value List.mem_cons_self)).bind (fun number => undrawn_writing _)
  | assign target value =>
      exact (compute_undrawn (free value List.mem_cons_self)).bind (fun number => undrawn_set target number)
  | inspect label value =>
      exact (compute_undrawn (free value List.mem_cons_self)).bind (fun number => undrawn_writing _)
  | limit target lower upper =>
      simp only [Instruction.operands, List.mem_append, Option.mem_toList] at free
      apply (evaluate_optional_undrawn (fun bound present => free bound (.inl present))).bind
      intro lower
      apply (evaluate_optional_undrawn (fun bound present => free bound (.inr present))).bind
      intro upper
      exact (undrawn_get target).bind (fun current => undrawn_set target _)
  | distribute value targets split =>
      apply (compute_undrawn (free value List.mem_cons_self)).bind
      intro amount
      by_cases small : amount.abs < distributeThreshold
      · simpa only [small, if_true] using undrawn_pure ()
      · simp only [small, if_false]
        refine (read_portions_undrawn ?_).bind (fun portions => write_portions_undrawn amount _ portions)
        intro target member weight present
        exact free weight (List.mem_cons_of_mem _ (List.mem_filterMap.mpr ⟨target, member, present⟩))
  | change target delta start finish =>
      simp only [Instruction.operands, List.forall_mem_cons] at free
      obtain ⟨deltaFree, startFree, finishFree, _⟩ := free
      apply (compute_undrawn deltaFree).bind
      intro delta
      apply (compute_undrawn startFree).bind
      intro start
      apply (compute_undrawn finishFree).bind
      intro finish
      by_cases ordered : start < finish
      · simp only [ordered, if_true]
        apply (undrawn_reading (fun state => undrawn_of_except state.year)).bind
        intro year
        exact (undrawn_get target).bind (fun current => undrawn_set target _)
      · simpa only [ordered, if_false] using undrawn_throw _

theorem run_all_undrawn {instructions : List Instruction}
    (free : ∀ instruction ∈ instructions, ∀ operand ∈ instruction.operands, operand.drawFree = true) :
    (runAll repeatLimit instructions).Undrawn := by
  induction instructions with
  | nil => exact undrawn_pure ()
  | cons instruction rest ih =>
      obtain ⟨here, later⟩ := List.forall_mem_cons.mp free
      exact (instruction_undrawn here).bind (fun _ => ih later)

end Undrawn

/-! ## Branches -/

inductive Branch where
  | consequent
  | alternative
  deriving DecidableEq, Repr

/-- A conditional with another expression in one of its branches; nothing else has branches. -/
def Expression.withBranch (side : Branch) (replacement : Expression) : Expression → Expression
  | .conditional test left right consequent alternative =>
    match side with
    | .consequent => .conditional test left right replacement alternative
    | .alternative => .conditional test left right consequent replacement
  | expression => expression

/-- The branch that is taken when a conditional is evaluated; none if its test fails. -/
def Visit.taken? (repeatLimit : Nat) (visit : Visit) : Option Branch :=
  match visit.part with
  | .conditional test left right _ _ =>
    match left.evaluate repeatLimit visit.world.state visit.world.source with
    | .error _ _ => none
    | .ok leftValue source =>
      match right.evaluate repeatLimit visit.world.state source with
      | .error _ _ => none
      | .ok rightValue _ => some (if test.holds leftValue rightValue then .consequent else .alternative)
  | _ => none

theorem conditional_congr {repeatLimit : Nat} {state : State} {test : Script.Comparison}
    {left right consequent alternative other otherwise : Expression} {source : Random.WordSource}
    (same : ∀ leftValue middle rightValue after,
      left.evaluate repeatLimit state source = .ok leftValue middle →
      right.evaluate repeatLimit state middle = .ok rightValue after →
      (if test.holds leftValue rightValue then other.evaluate repeatLimit state
        else otherwise.evaluate repeatLimit state) after =
      (if test.holds leftValue rightValue then consequent.evaluate repeatLimit state
        else alternative.evaluate repeatLimit state) after) :
    (Expression.conditional test left right other otherwise).evaluate repeatLimit state source =
      (Expression.conditional test left right consequent alternative).evaluate repeatLimit state source :=
  bind_congr_at rfl (fun leftValue middle leftDone =>
    bind_congr_at rfl (fun rightValue after rightDone =>
      same leftValue middle rightValue after leftDone rightDone))

theorem evaluate_with_branch {repeatLimit : Nat} {visit : Visit} {side : Branch}
    (untaken : visit.taken? repeatLimit ≠ some side) (replacement : Expression) :
    (Expression.withBranch side replacement visit.part).evaluate repeatLimit visit.world.state visit.world.source =
      visit.part.evaluate repeatLimit visit.world.state visit.world.source := by
  obtain ⟨place, part, state, source⟩ := visit
  cases part with
  | conditional test left right consequent alternative =>
      -- one branch was not taken wherever the test has an outcome, so its outcome is the other one
      cases side with
      | consequent =>
          refine conditional_congr (fun leftValue middle rightValue after leftDone rightDone => ?_)
          have fails : test.holds leftValue rightValue = false := by
            simpa [Visit.taken?, leftDone, rightDone] using untaken
          simp only [fails]
          rfl
      | alternative =>
          refine conditional_congr (fun leftValue middle rightValue after leftDone rightDone => ?_)
          have holds : test.holds leftValue rightValue = true := by
            simpa [Visit.taken?, leftDone, rightDone] using untaken
          simp only [holds, if_true]
  | _ => rfl

/-- Without draws a run has one result and one final state for all sources, and none of them is touched.
A branch that is never taken in a run may hold any expression: the run ends with the same result, in
the same state and at the same place of its source. -/
theorem draws_alone_bring_randomness (program : Program) :
    (program.drawFree = true → ∀ state, ∃ result after, ∀ source : Random.WordSource,
      program.run ⟨state, source⟩ = ended result ⟨after, source⟩) ∧
    ∀ (world : World) (place : List PlaceStep) (side : Branch) (replacement : Expression),
      (∀ visit ∈ program.visits world, visit.place = place →
        visit.taken? program.repeatLimit ≠ some side) →
      (program.modify (Expression.withBranch side replacement) place).run world = program.run world := by
  constructor
  · intro free
    simp only [Program.drawFree, List.all_eq_true] at free
    exact run_all_undrawn free
  · intro world place side replacement untaken
    apply run_modify
    intro visit member here
    exact evaluate_with_branch (untaken visit member here) replacement

/-- Draws twice, in the branch that its test takes both times. -/
def dicedProgram : Program :=
  ⟨[.define "rate" (.repeated .sum (.number 2.0)
      (.conditional .lt (.read (.parse "meta.year")) (.number 2030.0)
        (.uniform (.number 0.0) (.number 1.0)) (.read (.parse "in.missing")))),
    .inspect "rate" (.read (.parse "rate"))], 10⟩

def dicedWorld : World := ⟨.forYear 2025, .cycle [3, 5, 7]⟩

def dicedPlace : List PlaceStep := [.instruction 0, .value, .second]

def settledProgram : Program :=
  ⟨[.define "a" (.conditional .gt (.read (.parse "meta.year")) (.number 2030.0) (.number 1.0) (.number 2.0)),
    .assign (.parse "local.a") (.binary .mul (.read (.parse "a")) (.number 3.0)),
    .limit (.parse "in.absent") none (some (.read (.parse "a")))], 10⟩

theorem diced_branch_is_exchanged :
    settledProgram.drawFree = true ∧
    (∃ result after, ∀ source : Random.WordSource,
      settledProgram.run ⟨.forYear 2025, source⟩ = ended result ⟨after, source⟩) ∧
    ((dicedProgram.visits dicedWorld).filter (fun visit => visit.place = dicedPlace)).length = 2 ∧
    (∀ visit ∈ dicedProgram.visits dicedWorld, visit.place = dicedPlace →
      visit.taken? dicedProgram.repeatLimit ≠ some .alternative) ∧
    (dicedProgram.modify (Expression.withBranch .alternative (.normal (.number 0.0) (.number 1.0)))
      dicedPlace).run dicedWorld = dicedProgram.run dicedWorld := by
  have free : settledProgram.drawFree = true := by decide
  have untaken : ∀ visit ∈ dicedProgram.visits dicedWorld, visit.place = dicedPlace →
      visit.taken? dicedProgram.repeatLimit ≠ some .alternative := by decide +kernel
  exact ⟨free, (draws_alone_bring_randomness settledProgram).1 free (.forYear 2025), by decide +kernel,
    untaken, (draws_alone_bring_randomness dicedProgram).2 dicedWorld dicedPlace .alternative _ untaken⟩

end PolicyLevers
