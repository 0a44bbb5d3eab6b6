import PolicyLevers.Projection.Frame
import PolicyLevers.Proofs.RegistryHistory

/-!
# Checks of single levers

A check publishes the values of all levers on a state without variables and inspected values, and runs one
lever there.  On the baseline of a year that is the state from which the frame with that lever alone is
built, so the check tells how building the frame will end.
-/

namespace PolicyLevers

set_option autoImplicit false

open PolicyLevers.Random (WordSource)

namespace FrameBuilder

theorem build_historical_of_data (builder : FrameBuilder) {year : Int} {table : RegionTable}
    (data : builder.baseline.regions? year = some table) :
    ∃ state, builder.buildHistorical year = .ok state ∧ state.inputs = builder.inputs ∧
      state.resetScratch = state := by
  simp only [buildHistorical, data]
  exact ⟨_, rfl, rfl, rfl⟩

end FrameBuilder

namespace LeverRegistry

/-- How a check of a lever ends beside the frame of a year with that lever alone.  In each case both leave
the generator at one position. -/
inductive Foretells (year : Int) (name : String) :
    EStateM.Result (Halt UnknownLever) WordSource LeverStatus →
    EStateM.Result (Halt FrameError) WordSource State → Prop where
  /-- The lever fails in both; the frame's error carries its name. -/
  | failed (error : RuntimeError) (after : WordSource) :
      Foretells year name (.ok (.failed error) after)
        (.error (.failure ⟨year, some name, error⟩) after)
  | passed (frame : State) (after : WordSource) :
      Foretells year name (.ok (.ok frame.inspected) after) (.ok frame after)
  | broken (fault : SamplerFault) (after : WordSource) :
      Foretells year name (.error (.breakdown fault) after) (.error (.breakdown fault) after)

variable {registry : LeverRegistry} {lever : Lever} {program : Program} {name : String}

/-- Publishing the values once more changes nothing, so both runs start from the same state. -/
theorem check_foretells (registered : registry.find? name = some lever)
    (compiled : lever.compiled = .program program) {state : State}
    (inputs : state.inputs = registry.inputs) (clean : state.resetScratch = state)
    (year priority : Int) (source : WordSource) :
    Foretells year name (registry.check name state source)
      (FrameBuilder.applyLevers year [⟨name, priority, program⟩] state source) := by
  have start : { state with inputs := state.inputs.union registry.inputs } = state := by
    rw [← inputs, SortedMap.union_self]
  simp only [check, registered, compiled, FrameBuilder.applyLevers, clean, start]
  cases program.run ⟨state, source⟩ with
  | ok value world => exact .passed world.state world.source
  | error reason world =>
      cases reason with
      | failure error => exact .failed error world.source
      | breakdown fault => exact .broken fault world.source

/-- On the historical frame of a year, with the values of a registry, a check of a lever that has a program
ends as building the projected frame with that lever alone does.  It fails with a message exactly when the
frame fails in the lever with that message, and it shows inspected values exactly when there is a frame
that holds them.  A check answers with a status and a generator and nothing else, so the registry and the
state stay as they are. -/
theorem checks_foretell_frames (registered : registry.find? name = some lever)
    (compiled : lever.compiled = .program program) {baseline : Baseline} {year : Int}
    {table : RegionTable} (data : baseline.regions? year = some table) (source : WordSource) :
    let builder : FrameBuilder :=
      ⟨baseline, registry.inputs, [⟨name, lever.definition.priority, program⟩]⟩
    ∃ state, builder.buildHistorical year = .ok state ∧
      Foretells year name (registry.check name state source) (builder.buildProjected year source) ∧
      (∀ message after,
        (∃ error, registry.check name state source = .ok (.failed error) after ∧
          error.message = message) ↔
        ∃ error, builder.buildProjected year source = .error (.failure error) after ∧
          error.lever = some name ∧ error.source.message = message) ∧
      ∀ inspected after,
        registry.check name state source = .ok (.ok inspected) after ↔
        ∃ frame, builder.buildProjected year source = .ok frame after ∧
          frame.inspected = inspected := by
  intro builder
  obtain ⟨state, historical, inputs, clean⟩ :=
    FrameBuilder.build_historical_of_data builder data
  have built : builder.buildProjected year =
      FrameBuilder.applyLevers year [⟨name, lever.definition.priority, program⟩] state := by
    simp only [FrameBuilder.buildProjected, historical]
    rfl
  have foretold := check_foretells registered compiled inputs clean year lever.definition.priority source
  rw [← built] at foretold
  refine ⟨state, historical, foretold, ?_⟩
  generalize registry.check name state source = checked at foretold ⊢
  generalize builder.buildProjected year source = frame at foretold ⊢
  cases foretold with
  | failed error rest => simp [and_assoc]
  | passed frame rest => simp [and_assoc, and_comm]
  | broken fault rest => simp

def watchedScript : String :=
  "var x = in.ban + draw uniformly from 0 to in.tax; inspect x; in.tax = meta.year; inspect in.tax;"

/-- Two levers.  The first is disabled; it reads the value of the second, draws, and writes its own input. -/
def watchedCalls : List RegistryCall :=
  [.register { name := "tax", script := watchedScript, defaultValue := 1.0 },
    .register { name := "ban", priority := 1, script := "out.nowhere.x = 1;" },
    .setValue "ban" 4.0, .setEnabled "tax" false]

def watchedProgram : Program :=
  ⟨[.define "x" (.binary .add (.read (.parse "in.ban")) (.uniform (.number 0.0) (.read (.parse "in.tax")))),
    .inspect "x" (.read (.parse "x")), .assign (.parse "in.tax") (.read (.parse "meta.year")),
    .inspect "in.tax" (.read (.parse "in.tax"))], 10000⟩

def watchedLever : Lever :=
  ⟨{ name := "tax", script := watchedScript, defaultValue := 1.0 }, 1.0, false, .program watchedProgram⟩

def watchedBaseline : Baseline := .ofRecords [⟨2021, "china", .ofList [("eolRecyclingMT", 1.0)]⟩]

def watchedBuilder : FrameBuilder :=
  ⟨watchedBaseline, (after {} watchedCalls).inputs, [⟨"tax", 0, watchedProgram⟩]⟩

/-- How many values a frame shows as inspected, and how many words were drawn until then. -/
def shownAndDrawn (outcome : EStateM.Result (Halt FrameError) WordSource State) : Option (Nat × Nat) :=
  EStateM.run' (do
    let frame ← fun _ => outcome
    let rest ← get
    pure (frame.inspected.length, rest.drawn)) (.cycle [])

theorem watched_check_passes :
    (after {} watchedCalls).find? "tax" = some watchedLever ∧
    (∃ table, watchedBaseline.regions? 2021 = some table) ∧
    ∃ state frame rest, watchedBuilder.buildHistorical 2021 = .ok state ∧
      watchedBuilder.buildProjected 2021 (.cycle [3, 5, 7]) = .ok frame rest ∧
      frame.inspected.length = 2 ∧ rest.drawn = 1 ∧
      (after {} watchedCalls).check "tax" state (.cycle [3, 5, 7]) =
        .ok (.ok frame.inspected) rest := by
  have registered : (after {} watchedCalls).find? "tax" = some watchedLever := by decide +kernel
  have present : (watchedBaseline.regions? 2021).isSome = true := by decide +kernel
  have ends : shownAndDrawn (watchedBuilder.buildProjected 2021 (.cycle [3, 5, 7])) = some (2, 1) := by
    decide +kernel
  obtain ⟨table, data⟩ := Option.isSome_iff_exists.mp present
  obtain ⟨state, historical, _, _, inspected⟩ :=
    checks_foretell_frames registered rfl data (.cycle [3, 5, 7])
  cases outcome : watchedBuilder.buildProjected 2021 (.cycle [3, 5, 7]) with
  | error reason rest =>
      rw [outcome] at ends
      cases ends
  | ok frame rest =>
      rw [outcome] at ends
      change some (frame.inspected.length, rest.drawn) = some (2, 1) at ends
      simp only [Option.some.injEq, Prod.mk.injEq] at ends
      exact ⟨registered, ⟨table, data⟩, state, frame, rest, historical, rfl, ends.1, ends.2,
        (inspected _ _).mpr ⟨frame, outcome, rfl⟩⟩

end LeverRegistry

end PolicyLevers
