import PolicyLevers.Projection.Frame
import PolicyLevers.Projection.Series
import PolicyLevers.Random.ChaCha

/-!
# Runs

A run builds the frames of a range of historical years and of a range of projected ones, each with its
rollup.  Every projected year draws from a source of its own, a function of the seed and the year, so
years do not depend on one another and may be built in any order.
-/

namespace PolicyLevers

set_option autoImplicit false

structure RunRequest where
  /-- Tells the answer to this request from others. -/
  index : Nat
  historical : YearRange
  projected : YearRange
  levers : List CompiledLever
  inputs : NameMap Float

structure RunFailure where
  index : Nat
  year : Int
  lever : Option String
  source : RuntimeError
  deriving DecidableEq

def RunFailure.message (failure : RunFailure) : String :=
  "Run " ++ toString failure.index ++ " failed in " ++ toString failure.year ++ " (" ++
    failure.lever.getD "baseline" ++ "): " ++ failure.source.message

def RunFailure.ofFrame (index : Nat) (error : FrameError) : RunFailure :=
  ⟨index, error.year, error.lever, error.source⟩

/-- The stream of a year: its number in two's complement. -/
def yearStream (year : Int) : UInt64 := UInt64.ofInt year

def yearSource (seed : UInt64) (year : Int) : Random.WordSource :=
  Random.ChaCha.source seed (yearStream year)

structure Engine where
  baseline : Baseline
  seed : UInt64
  /-- Builds all projected years before it looks for failures. -/
  parallel : Bool

namespace Engine

abbrev YearOutcome := Except (Halt FrameError) State

def builder (engine : Engine) (request : RunRequest) : FrameBuilder :=
  ⟨engine.baseline, request.inputs, request.levers⟩

def historicalFrame (engine : Engine) (request : RunRequest) (year : Int) : Except FrameError State :=
  ((engine.builder request).buildHistorical year).map State.withRollup

def projectedFrame (engine : Engine) (request : RunRequest) (year : Int) : YearOutcome :=
  match (engine.builder request).buildProjected year (yearSource engine.seed year) with
  | .ok state _ => .ok state.withRollup
  | .error reason _ => .error reason

def addHistorical (engine : Engine) (request : RunRequest) (projection : Projection) :
    List Int → Except FrameError Projection
  | [] => .ok projection
  | year :: rest => do
    let frame ← engine.historicalFrame request year
    engine.addHistorical request (projection.insert year frame) rest

def addInOrder (engine : Engine) (request : RunRequest) (projection : Projection) :
    List Int → Except (Halt FrameError) Projection
  | [] => .ok projection
  | year :: rest => do
    let frame ← engine.projectedFrame request year
    engine.addInOrder request (projection.insert year frame) rest

def mergeOutcomes (projection : Projection) :
    List (Int × YearOutcome) → Except (Halt FrameError) Projection
  | [] => .ok projection
  | (year, outcome) :: rest => do
    let frame ← outcome
    mergeOutcomes (projection.insert year frame) rest

def breakdown? : YearOutcome → Option SamplerFault
  | .error (.breakdown fault) => some fault
  | _ => none

/-- Builds all projected years, then adds their frames.  A breakdown in any year counts more than a
failure in an earlier one. -/
def addTogether (engine : Engine) (request : RunRequest) (projection : Projection)
    (years : List Int) : Except (Halt FrameError) Projection :=
  let outcomes := years.map (fun year => (year, engine.projectedFrame request year))
  match outcomes.findSome? (fun (_, outcome) => breakdown? outcome) with
  | some fault => .error (.breakdown fault)
  | none => mergeOutcomes projection outcomes

/-- Builds all frames of a request, the historical ones first. -/
def run (engine : Engine) (request : RunRequest) : Except (Halt RunFailure) Projection :=
  match engine.addHistorical request ∅ request.historical.years with
  | .error error => .error (.failure (.ofFrame request.index error))
  | .ok projection =>
    let result :=
      if engine.parallel then engine.addTogether request projection request.projected.years
      else engine.addInOrder request projection request.projected.years
    result.mapError (Halt.map (RunFailure.ofFrame request.index))

end Engine

end PolicyLevers
