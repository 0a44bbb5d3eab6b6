import PolicyLevers.Lever.Registry
import PolicyLevers.Projection.Baseline

/-!
# Frames

The frame of a year is its state.  A historical frame holds the baseline as it is, a projected one the
baseline after all levers have been applied in order.  Each lever starts without the variables and
inspected values of the one before.
-/

namespace PolicyLevers

set_option autoImplicit false

structure FrameError where
  year : Int
  /-- The lever that failed; nothing if the baseline did. -/
  lever : Option String
  source : RuntimeError
  deriving DecidableEq

def FrameError.message (error : FrameError) : String :=
  toString error.year ++ " (" ++ error.lever.getD "baseline" ++ "): " ++ error.source.message

structure FrameBuilder where
  baseline : Baseline
  inputs : NameMap Float
  levers : List CompiledLever

namespace FrameBuilder

def buildHistorical (builder : FrameBuilder) (year : Int) : Except FrameError State :=
  match builder.baseline.regions? year with
  | none => .error ⟨year, none, .missingBaseline year⟩
  | some table =>
    let start := State.forYear year
    .ok { start with
      inputs := builder.inputs
      ledger := table.mapValues (fun _ attributes => .region attributes) }

def applyLevers (year : Int) : List CompiledLever → State →
    EStateM (Halt FrameError) Random.WordSource State
  | [], state => pure state
  | lever :: rest, state => fun source =>
    match lever.program.run ⟨state.resetScratch, source⟩ with
    | .ok _ world => applyLevers year rest world.state world.source
    | .error reason world =>
      .error (reason.map (fun error => ⟨year, some lever.name, error⟩)) world.source

def buildProjected (builder : FrameBuilder) (year : Int) :
    EStateM (Halt FrameError) Random.WordSource State :=
  match builder.buildHistorical year with
  | .error error => throw (.failure error)
  | .ok state => applyLevers year builder.levers state

end FrameBuilder

end PolicyLevers
