import PolicyLevers.Csv.BaselineTable
import PolicyLevers.Document.Configuration
import PolicyLevers.Json.Reader
import PolicyLevers.Projection.Engine

/-!
# Jobs

A job is a run as it is described in a document: the file that holds the baseline, the levers with
their values, and the years.
-/

namespace PolicyLevers

set_option autoImplicit false

structure Job where
  baseline : String
  levers : List LeverDefinition
  values : NameMap Float := ∅
  /-- Levers that publish their value but are not applied. -/
  disabled : List String := []
  historical : YearRange
  projected : YearRange
  /-- A job without a seed gets a new one for every run. -/
  seed : Option UInt64 := none
  trend : Bool := false
  normalizeShares : Bool := false
  parallel : Bool := true

inductive JobError where
  | unreadable (path : String)
  | invalidJob
  | baseline (fault : BaselineFault)
  | unknownLever (name : String)
  | invalidLever (name : String) (errors : List ScriptError)
  | run (failure : RunFailure)
  deriving DecidableEq

def JobError.message : JobError → String
  | unreadable path => "Could not read " ++ path
  | invalidJob => "Invalid job file"
  | baseline fault => fault.message
  | unknownLever name => "Job sets a value for unknown lever " ++ name
  | invalidLever name errors =>
    "Lever " ++ name ++ " does not compile: " ++
      String.intercalate "; " (errors.map ScriptError.message)
  | run failure => failure.message

inductive FileContent where
  | missing
  /-- There is something, but no text can be read from it. -/
  | unreadable
  | text (content : String)
  deriving DecidableEq, Repr

def YearRange.ofJson? (json : Json) : Option YearRange := do
  match ← json.listOf? Json.int32? with
  | [first, last] => some ⟨first, last⟩
  | _ => none

def seedOfJson? : Json → Option (Option UInt64)
  | .null => some none
  | json => json.uint64?.map some

namespace Job

def ofJson? (json : Json) : Option Job := do
  let fields ← json.fields? ["baseline", "levers", "values", "disabled", "historicalYears",
    "projectionYears", "seed", "trend", "normalizeShares", "parallel"]
  pure {
    baseline := ← fields.get? "baseline" Json.string?
    levers := ← fields.get? "levers" (Json.listOf? LeverDefinition.ofJson?)
    values := ← fields.getD? "values" (Json.mapOf? Json.float?) ∅
    disabled := ← fields.getD? "disabled" (Json.listOf? Json.string?) []
    historical := ← fields.get? "historicalYears" YearRange.ofJson?
    projected := ← fields.get? "projectionYears" YearRange.ofJson?
    seed := ← fields.getD? "seed" seedOfJson? none
    trend := ← fields.getD? "trend" Json.bool? false
    normalizeShares := ← fields.getD? "normalizeShares" Json.bool? false
    parallel := ← fields.getD? "parallel" Json.bool? true }

def read (path : String) : FileContent → Except JobError Job
  | .missing => .error (.unreadable path)
  | .unreadable => .error (.unreadable path)
  | .text content =>
    match (Json.read content.toList).bind ofJson? with
    | some job => .ok job
    | none => .error .invalidJob

def readBaseline (job : Job) (path : String) : FileContent → Except JobError Baseline
  | .missing => .error (.unreadable path)
  | .unreadable => .error (.baseline .unreadable)
  | .text content =>
    match BaselineTable.read content with
    | .error fault => .error (.baseline fault)
    | .ok baseline =>
      let extended := if job.trend then baseline.withTrend job.projected else baseline
      .ok (if job.normalizeShares then extended.withNormalizedShares job.projected else extended)

/-- Registers levers up to the first that does not compile. -/
def registerAll (registry : LeverRegistry) : List LeverDefinition → Except JobError LeverRegistry
  | [] => .ok registry
  | definition :: rest =>
    match (definition.toLever registry.limits).compiled.errors with
    | [] => registerAll (registry.register definition) rest
    | errors => .error (.invalidLever definition.name errors)

def setAll (registry : LeverRegistry) : List (String × Float) → Except JobError LeverRegistry
  | [] => .ok registry
  | (name, value) :: rest =>
    match registry.setValue name value with
    | .ok registry => setAll registry rest
    | .error _ => .error (.unknownLever name)

def disableAll (registry : LeverRegistry) : List String → Except JobError LeverRegistry
  | [] => .ok registry
  | name :: rest =>
    match registry.setEnabled name false with
    | .ok registry => disableAll registry rest
    | .error _ => .error (.unknownLever name)

def registry (job : Job) : Except JobError LeverRegistry := do
  let registered ← registerAll (.empty {}) job.levers
  let valued ← setAll registered job.values.entries
  disableAll valued job.disabled

/-- Runs the job on the file of its baseline.  The seed is used if the job has none. -/
def run (job : Job) (seed : UInt64) (path : String) (file : FileContent) :
    Except (Halt JobError) Projection := do
  let baseline ← (job.readBaseline path file).mapError Halt.failure
  let registry ← job.registry.mapError Halt.failure
  let engine : Engine := ⟨baseline, job.seed.getD seed, job.parallel⟩
  (engine.run ⟨0, job.historical, job.projected, registry.ordered, registry.inputs⟩).mapError
    (Halt.map JobError.run)

end Job

end PolicyLevers
