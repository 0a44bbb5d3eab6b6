import PolicyLevers.Proofs.DistributedShares
import PolicyLevers.Proofs.WholeNumbers

/-!
# Changes over a range of years

A change adds what a straight line has gained by the year of the state: nothing at its start, all of it at its end
and no more after it.  The line goes on in front of its start, where it takes away.  Of the state a change sees the
year and its target, beside what its own numbers are made of.
-/

namespace PolicyLevers

set_option autoImplicit false

open Running Decimal

/-- The numbers of a change: what is added from the start to the end. -/
structure Ramp where
  delta : Float
  start : Float
  finish : Float

namespace Ramp

/-- The expressions of a change come to these numbers in a world and leave a source of words. -/
def FoundIn (ramp : Ramp) (repeatLimit : Nat) (world : World) (delta start finish : Expression)
    (source : Random.WordSource) : Prop :=
  ∃ first second,
    delta.evaluate repeatLimit world.state world.source = .ok ramp.delta first ∧
    start.evaluate repeatLimit world.state first = .ok ramp.start second ∧
    finish.evaluate repeatLimit world.state second = .ok ramp.finish source

def added (ramp : Ramp) (year : Int) : Float :=
  ramp.delta / (ramp.finish - ramp.start) *
    ((if ramp.finish < ofInt year then ramp.finish else ofInt year) - ramp.start)

theorem added_up_to_end {ramp : Ramp} {year : Int} (early : ofInt year ≤ ramp.finish) :
    ramp.added year = ramp.delta / (ramp.finish - ramp.start) * (ofInt year - ramp.start) := by
  rw [added, if_neg (not_less_of_at_most early)]

theorem added_from_end {ramp : Ramp} {year : Int} (ordered : ramp.start < ramp.finish)
    (late : ramp.finish ≤ ofInt year) :
    ramp.added year = ramp.delta / (ramp.finish - ramp.start) * (ramp.finish - ramp.start) := by
  rw [added]
  split
  · rfl
  next reached =>
      -- the end may be the other zero, but then the start is no zero
      have alike := alike_of_not_less late reached
      rw [alike.subtract (visible_of_less ordered)]

/-- The number that a change leaves at its target, or why it fails. -/
def outcome (ramp : Ramp) (state : State) (target : Path) : Except RuntimeError Float :=
  if ramp.start < ramp.finish then do
    let year ← state.year
    let current ← state.get target
    pure (current + ramp.added year)
  else .error (.yearRange ramp.start ramp.finish)

section Outcomes

variable {ramp : Ramp} {state : State} {target : Path}

theorem outcome_unordered (unordered : ¬ramp.start < ramp.finish) :
    ramp.outcome state target = .error (.yearRange ramp.start ramp.finish) := by
  rw [outcome, if_neg unordered]

theorem outcome_undated (ordered : ramp.start < ramp.finish) {error : RuntimeError}
    (undated : state.year = .error error) : ramp.outcome state target = .error error := by
  rw [outcome, if_pos ordered, undated]
  rfl

theorem outcome_dated (ordered : ramp.start < ramp.finish) {year : Int}
    (dated : state.year = .ok year) :
    ramp.outcome state target =
      (state.get target).map (fun current => current + ramp.added year) := by
  rw [outcome, if_pos ordered, dated]
  cases state.get target <;> rfl

end Outcomes

def perform (ramp : Ramp) (target : Path) : Running Unit :=
  if ramp.start < ramp.finish then do
    let year ← Running.reading (fun state => .ofExcept state.year)
    let current ← Running.get target
    Running.set target (current + ramp.added year)
  else throw (Halt.failure (RuntimeError.yearRange ramp.start ramp.finish))

theorem perform_run (ramp : Ramp) (target : Path) (world : World) :
    match ramp.outcome world.state target with
    | .ok number => ∃ after, ramp.perform target world = .ok () { world with state := after } ∧
        world.state.OverwrittenAt after target number
    | .error error => ramp.perform target world = .error (.failure error) world := by
  unfold outcome perform
  by_cases ordered : ramp.start < ramp.finish
  · simp only [ordered, if_true]
    cases dated : world.state.year with
    | error error =>
        apply bind_of_error
        rw [reading, dated]
        rfl
    | ok year =>
        have read : reading (fun state => .ofExcept state.year) world = .ok year world := by
          rw [reading, dated]
          rfl
        rw [bind_of_ok read]
        cases found : world.state.get target with
        | error error =>
            apply bind_of_error
            rw [Running.get, reading, found]
            rfl
        | ok current =>
            rw [bind_of_ok (get_ok_iff.mpr ⟨found, rfl⟩)]
            exact set_over_number found _
  · simp only [ordered, if_false]
    rfl

variable {repeatLimit : Nat} {world : World} {ramp : Ramp} {delta start finish : Expression}
  {source : Random.WordSource}

section Found

variable (found : ramp.FoundIn repeatLimit world delta start finish source) {target : Path}

include found

theorem FoundIn.run : (Instruction.change target delta start finish).run repeatLimit world =
    ramp.perform target ⟨world.state, source⟩ := by
  obtain ⟨first, second, deltaFound, startFound, finishFound⟩ := found
  rw [Instruction.run, bind_of_ok (reading_of_ok deltaFound), bind_of_ok (reading_of_ok startFound),
    bind_of_ok (reading_of_ok finishFound)]
  rfl

theorem FoundIn.fails {error : RuntimeError} (outcome : ramp.outcome world.state target = .error error) :
    (Instruction.change target delta start finish).run repeatLimit world =
      .error (.failure error) ⟨world.state, source⟩ := by
  have performed := ramp.perform_run target ⟨world.state, source⟩
  rw [outcome] at performed
  exact found.run.trans performed

theorem FoundIn.succeeds {number : Float} (outcome : ramp.outcome world.state target = .ok number) :
    ∃ after, (Instruction.change target delta start finish).run repeatLimit world =
        .ok () ⟨after, source⟩ ∧ world.state.OverwrittenAt after target number := by
  have performed := ramp.perform_run target ⟨world.state, source⟩
  rw [outcome] at performed
  obtain ⟨after, ran, written⟩ := performed
  exact ⟨after, found.run.trans ran, written⟩

end Found

end Ramp

/-! ## Two states -/

def EndAlike (target : Path) (first second : EStateM.Result (Halt RuntimeError) World Unit) : Prop :=
  (∃ halt after further, first = .error halt after ∧ second = .error halt further) ∨
    ∃ number after further, first = .ok () after ∧ second = .ok () further ∧
      after.state.get target = .ok number ∧ further.state.get target = .ok number

/-- A change sees nothing of a state that its outcome does not tell. -/
theorem changes_end_alike {repeatLimit : Nat} {world other : World} {ramp : Ramp}
    {delta start finish : Expression} {source otherSource : Random.WordSource} {target : Path}
    (found : ramp.FoundIn repeatLimit world delta start finish source)
    (otherFound : ramp.FoundIn repeatLimit other delta start finish otherSource)
    (same : ramp.outcome world.state target = ramp.outcome other.state target) :
    EndAlike target ((Instruction.change target delta start finish).run repeatLimit world)
      ((Instruction.change target delta start finish).run repeatLimit other) := by
  cases outcome : ramp.outcome world.state target with
  | error error => exact .inl ⟨_, _, _, found.fails outcome, otherFound.fails (same ▸ outcome)⟩
  | ok number =>
      obtain ⟨after, ran, written⟩ := found.succeeds outcome
      obtain ⟨further, alsoRan, alsoWritten⟩ := otherFound.succeeds (same ▸ outcome)
      exact .inr ⟨number, _, _, ran, alsoRan, written.get, alsoWritten.get⟩

namespace State

structure AlikeButYear (state other : State) : Prop where
  locals : state.locals = other.locals
  ledger : state.ledger = other.ledger
  inputs : state.inputs = other.inputs
  inspected : state.inspected = other.inspected
  context : ∀ name, name ≠ yearName → state.context.get? name = other.context.get? name

def yearLocation : Location := ⟨.context, yearName, []⟩

theorem year_of_moment {state : State} {moment : Float} (dated : state.context.get? yearName = some moment) :
    state.year = .ok (truncateInt32 moment) := by
  rw [State.year, dated]

theorem year_undated {state : State} (undated : state.context.get? yearName = none) :
    state.year = .error .missingYear := by
  rw [State.year, undated]

theorem year_congr {state other : State} (same : (state.context.get? yearName).map truncateInt32 =
    (other.context.get? yearName).map truncateInt32) : state.year = other.year := by
  unfold State.year
  cases here : state.context.get? yearName <;> cases there : other.context.get? yearName <;>
    simp_all

/-- Paths that do not lead to the year see no other year. -/
theorem AlikeButYear.get {state other : State} (alike : AlikeButYear state other)
    {moment otherMoment : Float} (dated : state.context.get? yearName = some moment)
    (otherDated : other.context.get? yearName = some otherMoment) {path : Path}
    (apart : path.location? ≠ some yearLocation) : state.get path = other.get path := by
  have context : path.area = some .context →
      getFlat state.context path = getFlat other.context path := by
    intro inside
    unfold getFlat
    by_cases first : path.first = yearName
    · -- the path goes on below the year, which is there in both states
      cases rest : path.rest with
      | nil => exact absurd (by simp [Path.location?, inside, first, rest, yearLocation]) apart
      | cons next further => rw [first, dated, otherDated]
    · rw [alike.context _ first]
  unfold State.get
  rw [alike.locals, alike.ledger, alike.inputs]
  cases area : path.area with
  | none => rfl
  | some part =>
      cases part with
      | context => exact context area
      | _ => rfl

end State

/-- A change whose numbers are found.  If they are in no order, no numbers among them, it fails with both, whatever
the year and the target are.  Otherwise it needs the year, which is the number of the context cut off to 32 bits, and
a number at the target, where it adds what the line has gained: up to the end of the range its slope times the years
since the start, and from the end on always the same.  It changes nothing else, and sees nothing else: states of the
same year with the same at the target end alike, and so do states that differ in their year alone, at or after the
end. -/
theorem changes_are_level_after_their_end (repeatLimit : Nat) (target : Path)
    (delta start finish : Expression) :
    let change := (Instruction.change target delta start finish).run repeatLimit
    (∀ world ramp source, Ramp.FoundIn ramp repeatLimit world delta start finish source →
      (ramp.start.isNaN = true ∨ ramp.finish.isNaN = true → ¬ramp.start < ramp.finish) ∧
      (¬ramp.start < ramp.finish →
        change world = .error (.failure (.yearRange ramp.start ramp.finish)) ⟨world.state, source⟩)) ∧
    (∀ moment : Float, moment.isFinite = true → |amount moment| < 2 ^ 31 →
      |(truncateInt32 moment : ℚ)| ≤ |amount moment| ∧ |amount moment - truncateInt32 moment| < 1) ∧
    (∀ world ramp source, Ramp.FoundIn ramp repeatLimit world delta start finish source →
      ramp.start < ramp.finish →
      (world.state.context.get? "year" = none →
        change world = .error (.failure .missingYear) ⟨world.state, source⟩) ∧
      (∀ moment error, world.state.context.get? "year" = some moment →
        world.state.get target = .error error →
        change world = .error (.failure error) ⟨world.state, source⟩) ∧
      ∀ moment current, world.state.context.get? "year" = some moment →
        world.state.get target = .ok current →
        ∃ after added, change world = .ok () ⟨after, source⟩ ∧
          world.state.OverwrittenAt after target (current + added) ∧
          (ofInt (truncateInt32 moment) ≤ ramp.finish →
            added = ramp.delta / (ramp.finish - ramp.start) *
              (ofInt (truncateInt32 moment) - ramp.start)) ∧
          (ramp.finish ≤ ofInt (truncateInt32 moment) →
            added = ramp.delta / (ramp.finish - ramp.start) * (ramp.finish - ramp.start))) ∧
    (∀ world other ramp source otherSource,
      Ramp.FoundIn ramp repeatLimit world delta start finish source →
      Ramp.FoundIn ramp repeatLimit other delta start finish otherSource →
      (world.state.context.get? "year").map truncateInt32 =
        (other.state.context.get? "year").map truncateInt32 →
      world.state.get target = other.state.get target →
      EndAlike target (change world) (change other)) ∧
    ∀ world other ramp source otherSource moment otherMoment,
      Ramp.FoundIn ramp repeatLimit world delta start finish source →
      Ramp.FoundIn ramp repeatLimit other delta start finish otherSource →
      ramp.start < ramp.finish →
      world.state.AlikeButYear other.state → target.location? ≠ some State.yearLocation →
      world.state.context.get? "year" = some moment → other.state.context.get? "year" = some otherMoment →
      ramp.finish ≤ ofInt (truncateInt32 moment) → ramp.finish ≤ ofInt (truncateInt32 otherMoment) →
      EndAlike target (change world) (change other) := by
  intro change
  refine ⟨?_, ?_, ?_, ?_, ?_⟩
  · intro world ramp source found
    refine ⟨fun missing less => ?_, fun unordered => found.fails (Ramp.outcome_unordered unordered)⟩
    obtain ⟨number, also⟩ := numbers_of_less less
    simp only [number, also, Bool.false_eq_true, or_self] at missing
  · intro moment finite small
    rw [truncate_int32_of_small finite small]
    exact truncate_toward_zero moment
  · intro world ramp source found ordered
    refine ⟨fun undated => found.fails (Ramp.outcome_undated ordered (State.year_undated undated)), ?_, ?_⟩
    · intro moment error dated missing
      apply found.fails
      rw [Ramp.outcome_dated ordered (State.year_of_moment dated), missing]
      rfl
    · intro moment current dated here
      have outcome : ramp.outcome world.state target =
          .ok (current + ramp.added (truncateInt32 moment)) := by
        rw [Ramp.outcome_dated ordered (State.year_of_moment dated), here]
        rfl
      obtain ⟨after, ran, written⟩ := found.succeeds outcome
      exact ⟨after, ramp.added (truncateInt32 moment), ran, written, Ramp.added_up_to_end,
        Ramp.added_from_end ordered⟩
  · intro world other ramp source otherSource found otherFound sameYear sameTarget
    apply changes_end_alike found otherFound
    rw [Ramp.outcome, Ramp.outcome, State.year_congr sameYear, sameTarget]
  · intro world other ramp source otherSource moment otherMoment found otherFound ordered alike apart dated
      otherDated late otherLate
    apply changes_end_alike found otherFound
    rw [Ramp.outcome_dated ordered (State.year_of_moment dated),
      Ramp.outcome_dated ordered (State.year_of_moment otherDated), alike.get dated otherDated apart,
      Ramp.added_from_end ordered late, Ramp.added_from_end ordered otherLate]

def goalWorld (year goal : Float) : World :=
  ⟨{ State.empty.setRegion "china" (.ofList [("x", 1.0)]) with
      context := .ofList [(State.yearName, year)], inputs := .ofList [("goal", goal)] },
    .start (fun _ => 0)⟩

def reachGoal (goal : Float) : Ramp := ⟨goal - 2025.0, 2025.0, goal⟩

theorem goal_of_goal_world (year goal : Float) :
    (goalWorld year goal).state.get (.parse "in.goal") = .ok goal := by
  have held : (goalWorld year goal).state.inputs.get? "goal" = some goal :=
    SortedMap.get_insert_same _ _ _
  have parsed : Path.parse "in.goal" = ⟨"in.goal", "in", some .inputs, "goal", []⟩ := rfl
  simp [parsed, State.get, State.getFlat, held]

theorem reach_goal_found (year goal : Float) :
    (reachGoal goal).FoundIn 10 (goalWorld year goal)
      (.binary .sub (.read (.parse "in.goal")) (.number 2025.0)) (.number 2025.0)
      (.read (.parse "in.goal")) (goalWorld year goal).source := by
  have found := goal_of_goal_world year goal
  refine ⟨(goalWorld year goal).source, (goalWorld year goal).source, ?_, rfl, ?_⟩
  · simp only [Expression.evaluate, found]
    rfl
  · simp only [Expression.evaluate, found]
    rfl

theorem year_of_goal_world (year goal : Float) :
    (goalWorld year goal).state.context.get? "year" = some year :=
  SortedMap.get_insert_same _ _ _

theorem passed_goal_is_kept :
    let target := Path.parse "out.china.x"
    let change := (Instruction.change target
      (.binary .sub (.read (.parse "in.goal")) (.number 2025.0)) (.number 2025.0)
      (.read (.parse "in.goal"))).run 10
    change (goalWorld 2031.0 notNumber) =
      .error (.failure (.yearRange 2025.0 notNumber)) (goalWorld 2031.0 notNumber) ∧
    (∃ after, change (goalWorld 2020.0 2030.0) = .ok () ⟨after, .start (fun _ => 0)⟩ ∧
      after.get target = .ok (-4.0)) ∧
    (∃ after, change (goalWorld 2027.75 2030.0) = .ok () ⟨after, .start (fun _ => 0)⟩ ∧
      after.get target = .ok 3.0) ∧
    (∃ after, change (goalWorld 2040.0 2030.0) = .ok () ⟨after, .start (fun _ => 0)⟩ ∧
      after.get target = .ok 6.0) ∧
    EndAlike target (change (goalWorld 2020.25 2030.0)) (change (goalWorld 2020.75 2030.0)) ∧
    EndAlike target (change (goalWorld 2031.9 2030.0)) (change (goalWorld 2047.0 2030.0)) := by
  intro target change
  obtain ⟨refused, _, performed, reads, level⟩ := changes_are_level_after_their_end 10 target
    (.binary .sub (.read (.parse "in.goal")) (.number 2025.0)) (.number 2025.0)
    (.read (.parse "in.goal"))
  have gains (year : Float) (here : (goalWorld year 2030.0).state.get target = .ok 1.0) :=
    (performed _ _ _ (reach_goal_found year 2030.0) (by decide +kernel)).2.2
      year 1.0 (year_of_goal_world year 2030.0) here
  have rises {year number : Float} (here : (goalWorld year 2030.0).state.get target = .ok 1.0)
      (early : ofInt (truncateInt32 year) ≤ 2030.0)
      (sum : 1.0 + (2030.0 - 2025.0) / (2030.0 - 2025.0) * (ofInt (truncateInt32 year) - 2025.0) = number) :
      ∃ after, change (goalWorld year 2030.0) = .ok () ⟨after, .start (fun _ => 0)⟩ ∧
        after.get target = .ok number := by
    obtain ⟨after, added, ran, written, gained, _⟩ := gains year here
    rw [gained early] at written
    exact ⟨after, ran, sum ▸ written.get⟩
  refine ⟨?_, rises (by decide +kernel) (by decide +kernel) (by decide +kernel),
    rises (by decide +kernel) (by decide +kernel) (by decide +kernel), ?_, ?_, ?_⟩
  · obtain ⟨unordered, fails⟩ := refused _ _ _ (reach_goal_found 2031.0 notNumber)
    exact fails (unordered (.inr (by decide +kernel)))
  · obtain ⟨after, added, ran, written, _, late⟩ := gains 2040.0 (by decide +kernel)
    have number : 1.0 + added = 6.0 := by
      rw [late (by decide +kernel)]
      decide +kernel
    exact ⟨after, ran, number ▸ written.get⟩
  · exact reads _ _ _ _ _ (reach_goal_found 2020.25 2030.0) (reach_goal_found 2020.75 2030.0)
      (by decide +kernel) (by decide +kernel)
  · have alike : (goalWorld 2031.9 2030.0).state.AlikeButYear (goalWorld 2047.0 2030.0).state := by
      refine ⟨rfl, rfl, rfl, rfl, fun name other => ?_⟩
      exact (SortedMap.get_insert_other SortedMap.empty other 2031.9).trans
        (SortedMap.get_insert_other SortedMap.empty other 2047.0).symm
    exact level _ _ _ _ _ 2031.9 2047.0 (reach_goal_found 2031.9 2030.0) (reach_goal_found 2047.0 2030.0)
      (by decide +kernel) alike (by decide +kernel) (year_of_goal_world _ _) (year_of_goal_world _ _)
      (by decide +kernel) (by decide +kernel)

end PolicyLevers
