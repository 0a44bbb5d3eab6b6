import PolicyLevers.Proofs.DrawnWords
import PolicyLevers.Proofs.EarliestFailure

/-!
# Levers of one year

Levers run one after another, each on the ledger, the inputs, the context and the generator that the
levers before it left.  Variables and inspected values are emptied before every lever, so what one lever
keeps there reaches no other.
-/

namespace PolicyLevers

set_option autoImplicit false

open PolicyLevers.Random (WordSource)

namespace FrameBuilder

def withLevers (builder : FrameBuilder) (levers : List CompiledLever) : FrameBuilder :=
  { builder with levers := levers }

theorem apply_levers_append (year : Int) (levers others : List CompiledLever) (state : State) :
    applyLevers year (levers ++ others) state =
      applyLevers year levers state >>= applyLevers year others := by
  induction levers generalizing state with
  | nil => rfl
  | cons lever rest induction =>
      funext source
      change _ = EStateM.bind _ _ source
      simp only [List.cons_append, applyLevers, EStateM.bind]
      cases outcome : lever.program.run ⟨state.resetScratch, source⟩ with
      | error reason world => rfl
      | ok value world =>
          dsimp only
          rw [induction world.state]
          rfl

theorem apply_levers_keeps_words (year : Int) (levers : List CompiledLever) (state : State) :
    KeepsWords id (applyLevers year levers state) := by
  induction levers generalizing state with
  | nil => exact keeps_words_pure state
  | cons lever rest induction =>
      intro source
      have kept := run_keeps_words lever.program ⟨state.resetScratch, source⟩
      simp only [applyLevers]
      cases outcome : lever.program.run ⟨state.resetScratch, source⟩ with
      | error reason world =>
          simp only [outcome] at kept
          exact kept
      | ok value world =>
          simp only [outcome] at kept
          have onward := induction world.state world.source
          cases final : applyLevers year rest world.state world.source <;>
            simp only [final, id_eq] at onward ⊢ <;> exact onward.trans kept

theorem apply_levers_stopped {year : Int} {levers : List CompiledLever} {state : State}
    {source rest : WordSource} {halt : Halt FrameError}
    (stopped : applyLevers year levers state source = .error halt rest) :
    ∃ before failing after left here reason world, levers = before ++ failing :: after ∧
      applyLevers year before state source = .ok left here ∧
      failing.program.run ⟨left.resetScratch, here⟩ = .error reason world ∧
      halt = reason.map (fun error => ⟨year, some failing.name, error⟩) ∧ rest = world.source := by
  induction levers generalizing state source with
  | nil => cases stopped
  | cons lever levers induction =>
      simp only [applyLevers] at stopped
      split at stopped
      next value world ran =>
          obtain ⟨before, failing, after, left, here, reason, final, split, applied, failed⟩ :=
            induction stopped
          refine ⟨lever :: before, failing, after, left, here, reason, final, ?_, ?_, failed⟩
          · rw [split, List.cons_append]
          · simpa only [applyLevers, ran] using applied
      next reason world ran =>
          cases stopped
          exact ⟨[], lever, levers, state, source, reason, world, rfl, rfl, ran, rfl, rfl⟩

inductive LastLeverEnd (builder : FrameBuilder) (year : Int) (source : WordSource)
    (levers : List CompiledLever) (last : CompiledLever) :
    EStateM.Result (Halt FrameError) WordSource State → Prop where
  /-- A lever fails on what the levers before it left; the error carries the year and its name. -/
  | failed {before after : List CompiledLever} {failing : CompiledLever} {left : State}
      {here : WordSource} {error : RuntimeError} {world : World}
      (split : levers ++ [last] = before ++ failing :: after)
      (applied : (builder.withLevers before).buildProjected year source = .ok left here)
      (ran : failing.program.run ⟨{ left with locals := ∅, inspected := [] }, here⟩ = .error (.failure error) world) :
      LastLeverEnd builder year source levers last
        (.error (.failure ⟨year, some failing.name, error⟩) world.source)
  /-- A sampler breaks down in a lever, which is no failure of the lever. -/
  | broken {before after : List CompiledLever} {breaking : CompiledLever} {left : State}
      {here : WordSource} {fault : SamplerFault} {world : World}
      (split : levers ++ [last] = before ++ breaking :: after)
      (applied : (builder.withLevers before).buildProjected year source = .ok left here)
      (ran : breaking.program.run ⟨{ left with locals := ∅, inspected := [] }, here⟩ = .error (.breakdown fault) world) :
      LastLeverEnd builder year source levers last (.error (.breakdown fault) world.source)
  /-- All levers before the last leave a frame, on which it runs without variables and inspected
  values. -/
  | finished {left : State} {here : WordSource} {world : World}
      (applied : (builder.withLevers levers).buildProjected year source = .ok left here)
      (ran : last.program.run ⟨{ left with locals := ∅, inspected := [] }, here⟩ = .ok () world) :
      LastLeverEnd builder year source levers last (.ok world.state world.source)

section Built

variable {builder : FrameBuilder} {year : Int} {seeded : State}

theorem build_projected_seeded (data : builder.buildHistorical year = .ok seeded)
    (levers : List CompiledLever) :
    (builder.withLevers levers).buildProjected year = applyLevers year levers seeded := by
  have same : (builder.withLevers levers).buildHistorical year = .ok seeded := data
  simp only [buildProjected, same]
  rfl

theorem build_projected_last (data : builder.buildHistorical year = .ok seeded)
    {levers : List CompiledLever} {source here : WordSource} {left : State}
    (applied : (builder.withLevers levers).buildProjected year source = .ok left here)
    (last : CompiledLever) :
    (builder.withLevers (levers ++ [last])).buildProjected year source =
      applyLevers year [last] left here := by
  rw [build_projected_seeded data] at applied ⊢
  rw [apply_levers_append]
  exact bind_of_ok applied _

theorem last_lever_end (data : builder.buildHistorical year = .ok seeded) (source : WordSource)
    (levers : List CompiledLever) (last : CompiledLever) :
    LastLeverEnd builder year source levers last
      ((builder.withLevers (levers ++ [last])).buildProjected year source) := by
  have built := build_projected_seeded data
  cases outcome : (builder.withLevers (levers ++ [last])).buildProjected year source with
  | error halt rest =>
      rw [built] at outcome
      obtain ⟨before, failing, after, left, here, reason, world, split, applied, ran, rfl, rfl⟩ :=
        apply_levers_stopped outcome
      rw [← built before] at applied
      cases reason with
      | failure error => exact .failed split applied ran
      | breakdown fault => exact .broken split applied ran
  | ok state rest =>
      cases applied : (builder.withLevers levers).buildProjected year source with
      | error halt rest =>
          rw [built] at outcome applied
          rw [apply_levers_append, bind_of_error applied] at outcome
          cases outcome
      | ok left here =>
          rw [build_projected_last data applied] at outcome
          simp only [applyLevers] at outcome
          split at outcome
          next value world ran =>
              cases outcome
              exact .finished applied ran
          next reason world ran => cases outcome

/-- A lever sees nothing of the variables and inspected values that it finds. -/
theorem apply_lever_congr {left right : State} (ledger : left.ledger = right.ledger)
    (inputs : left.inputs = right.inputs) (context : left.context = right.context)
    (lever : CompiledLever) (rest : List CompiledLever) :
    applyLevers year (lever :: rest) left = applyLevers year (lever :: rest) right := by
  have same : left.resetScratch = right.resetScratch := by
    simp only [State.resetScratch, ledger, inputs, context]
  funext source
  simp only [applyLevers, same]

end Built

/-- The frame of a row of levers is the baseline's if there are none, and otherwise ends as its last lever
ends on what the others left, unless one of these stopped before.  So two rows that leave the same
ledger, inputs and context at the same position of the generator are followed by the same frame or the
same error, whatever variables they declared and values they inspected. -/
theorem levers_are_isolated (builder : FrameBuilder) (year : Int) (table : RegionTable)
    (data : builder.baseline.regions? year = some table) (source : WordSource)
    (levers : List CompiledLever) (last : CompiledLever) :
    (∃ seeded, builder.buildHistorical year = .ok seeded ∧
      (builder.withLevers []).buildProjected year source = .ok seeded source) ∧
    LastLeverEnd builder year source levers last
      ((builder.withLevers (levers ++ [last])).buildProjected year source) ∧
    ∀ (others : List CompiledLever) (left right : State) (here there : WordSource),
      (builder.withLevers levers).buildProjected year source = .ok left here →
      (builder.withLevers others).buildProjected year source = .ok right there →
      left.ledger = right.ledger → left.inputs = right.inputs → left.context = right.context →
      here.drawn = there.drawn →
      (builder.withLevers (levers ++ [last])).buildProjected year source =
        (builder.withLevers (others ++ [last])).buildProjected year source := by
  obtain ⟨seeded, historical⟩ : ∃ seeded, builder.buildHistorical year = .ok seeded := by
    simp only [buildHistorical, data]
    exact ⟨_, rfl⟩
  refine ⟨⟨seeded, historical, ?_⟩, last_lever_end historical source levers last, ?_⟩
  · rw [build_projected_seeded historical]
    rfl
  · intro others left right here there applied otherApplied ledger inputs context position
    -- both rows took their words from one source, so the number taken decides where it stands
    have leftWords := apply_levers_keeps_words year levers seeded
    have rightWords := apply_levers_keeps_words year others seeded
    rw [← build_projected_seeded historical] at leftWords rightWords
    have words : here.word = there.word := (leftWords.ok applied).trans (rightWords.ok otherApplied).symm
    obtain rfl : here = there := by
      cases here
      cases there
      simp only at words position
      rw [words, position]
    rw [build_projected_last historical applied, build_projected_last historical otherApplied,
      apply_lever_congr ledger inputs context]

def watchfulLever : CompiledLever :=
  ⟨"watchful", 0, ⟨[.define "x" (.uniform (.number 0.0) (.number 1.0)),
    .inspect "x" (.read (.parse "x"))], 10⟩⟩

def quietLever : CompiledLever :=
  ⟨"quiet", 0, ⟨[.define "y" (.uniform (.number 0.0) (.number 1.0))], 10⟩⟩

/-- Declares the first of these variables again, and draws. -/
def drawingLever : CompiledLever :=
  ⟨"drawing", 0, ⟨[.define "x" (.number 2.0), .assign (.parse "out.china.eolRecyclingMT")
    (.binary .add (.read (.parse "x")) (.uniform (.number 0.0) (.number 1.0)))], 10⟩⟩

def rampBuilder : FrameBuilder := ⟨Engine.rampBaseline, ∅, []⟩

/-- What two rows of levers left apart from variables and inspected values. -/
def SameOutside : EStateM.Result (Halt FrameError) WordSource State →
    EStateM.Result (Halt FrameError) WordSource State → Prop
  | .ok left here, .ok right there =>
    left.ledger = right.ledger ∧ left.inputs = right.inputs ∧ left.context = right.context ∧
      here.drawn = there.drawn ∧ left.locals ≠ right.locals ∧ left.inspected ≠ right.inspected
  | _, _ => False

instance : DecidableRel SameOutside := by
  rintro (⟨left, here⟩ | _) (⟨right, there⟩ | _) <;> unfold SameOutside <;> infer_instance

theorem scratch_is_forgotten :
    (∃ table, rampBuilder.baseline.regions? 2021 = some table) ∧
    SameOutside ((rampBuilder.withLevers [watchfulLever]).buildProjected 2021 (.cycle [3, 5, 7]))
      ((rampBuilder.withLevers [quietLever]).buildProjected 2021 (.cycle [3, 5, 7])) ∧
    (rampBuilder.withLevers [watchfulLever, drawingLever]).buildProjected 2021 (.cycle [3, 5, 7]) =
      (rampBuilder.withLevers [quietLever, drawingLever]).buildProjected 2021 (.cycle [3, 5, 7]) := by
  have data : (rampBuilder.baseline.regions? 2021).isSome = true := by decide +kernel
  obtain ⟨table, found⟩ := Option.isSome_iff_exists.mp data
  have same : SameOutside
      ((rampBuilder.withLevers [watchfulLever]).buildProjected 2021 (.cycle [3, 5, 7]))
      ((rampBuilder.withLevers [quietLever]).buildProjected 2021 (.cycle [3, 5, 7])) := by
    decide +kernel
  refine ⟨⟨table, found⟩, same, ?_⟩
  have isolated := (levers_are_isolated rampBuilder 2021 table found (.cycle [3, 5, 7])
    [watchfulLever] drawingLever).2.2 [quietLever]
  cases first : (rampBuilder.withLevers [watchfulLever]).buildProjected 2021 (.cycle [3, 5, 7]) with
  | error halt rest => simp only [first, SameOutside] at same
  | ok left here =>
      cases second : (rampBuilder.withLevers [quietLever]).buildProjected 2021 (.cycle [3, 5, 7]) with
      | error halt rest => simp only [first, second, SameOutside] at same
      | ok right there =>
          simp only [first, second, SameOutside] at same
          obtain ⟨ledger, inputs, context, position, -⟩ := same
          exact isolated left right here there first second ledger inputs context position

end FrameBuilder

end PolicyLevers
