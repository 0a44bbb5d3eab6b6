import PolicyLevers.Program.Compile
import PolicyLevers.Program.Run

/-!
# Levers

A lever is a named input with a script that turns its value into changes of the ledger.  A registry
keeps levers in the order of their first registration, each with its current value, whether it is
enabled, and what its script compiles to.
-/

namespace PolicyLevers

set_option autoImplicit false

structure LeverDefinition where
  /-- The input under which the value is published. -/
  name : String
  /-- Levers are applied in ascending priority; of equal ones the one declared first comes first. -/
  priority : Int := 0
  units : String := ""
  script : String
  defaultValue : Float := 0.0
  deriving DecidableEq

structure Lever where
  definition : LeverDefinition
  value : Float
  enabled : Bool
  compiled : Compiled
  deriving DecidableEq

structure CompiledLever where
  name : String
  priority : Int
  program : Program
  deriving DecidableEq

inductive LeverStatus where
  | invalid (errors : List ScriptError)
  | blank
  | ok (inspected : List InspectRecord)
  | failed (error : RuntimeError)
  deriving DecidableEq

structure UnknownLever where
  name : String
  deriving DecidableEq, Repr

def UnknownLever.message (error : UnknownLever) : String := "Unknown lever: " ++ error.name

def LeverDefinition.toLever (limits : ScriptLimits) (definition : LeverDefinition) : Lever :=
  ⟨definition, definition.defaultValue, true, compile limits definition.script⟩

/-- The lever as it is applied, if it is enabled and has a program. -/
def Lever.applied? (lever : Lever) : Option CompiledLever :=
  if lever.enabled then
    lever.compiled.program?.map
      (fun program => ⟨lever.definition.name, lever.definition.priority, program⟩)
  else none

theorem Lever.applied_iff {lever : Lever} {applied : CompiledLever} :
    lever.applied? = some applied ↔ lever.enabled = true ∧ ∃ program,
      lever.compiled = .program program ∧
        applied = ⟨lever.definition.name, lever.definition.priority, program⟩ := by
  unfold Lever.applied?
  cases lever.enabled <;> cases lever.compiled <;> simp [Compiled.program?, eq_comm]

/-- The lever with another script, compiled anew if the text differs. -/
def Lever.withScript (limits : ScriptLimits) (script : String) (lever : Lever) : Lever :=
  if lever.definition.script = script then lever
  else
    { lever with
      definition := { lever.definition with script := script }
      compiled := compile limits script }

/-- Levers in the order of their first registrations, and the slot in which each name is found. -/
structure LeverRegistry where
  limits : ScriptLimits
  levers : List Lever
  slots : NameMap Nat
  deriving DecidableEq

namespace LeverRegistry

def empty (limits : ScriptLimits) : LeverRegistry := ⟨limits, [], ∅⟩

def find? (registry : LeverRegistry) (name : String) : Option Lever :=
  (registry.slots.get? name).bind (fun slot => registry.levers[slot]?)

/-- Adds a lever in a slot of its own, or replaces the one of that name in its slot. -/
def register (registry : LeverRegistry) (definition : LeverDefinition) : LeverRegistry :=
  let lever := definition.toLever registry.limits
  match registry.slots.get? definition.name with
  | some slot => { registry with levers := registry.levers.set slot lever }
  | none =>
    { registry with
      levers := registry.levers ++ [lever]
      slots := registry.slots.insert definition.name registry.levers.length }

def modify (registry : LeverRegistry) (name : String) (change : Lever → Lever) :
    Except UnknownLever LeverRegistry :=
  match registry.slots.get? name with
  | none => .error ⟨name⟩
  | some slot => .ok { registry with levers := registry.levers.modify slot change }

def updateScript (registry : LeverRegistry) (name script : String) :
    Except UnknownLever LeverRegistry :=
  registry.modify name (Lever.withScript registry.limits script)

def setValue (registry : LeverRegistry) (name : String) (value : Float) :
    Except UnknownLever LeverRegistry :=
  registry.modify name (fun lever => { lever with value := value })

/-- Enables or disables a lever.  A disabled lever still publishes its value. -/
def setEnabled (registry : LeverRegistry) (name : String) (enabled : Bool) :
    Except UnknownLever LeverRegistry :=
  registry.modify name (fun lever => { lever with enabled := enabled })

def lookup (registry : LeverRegistry) (name : String) : Except UnknownLever Lever :=
  match registry.find? name with
  | none => .error ⟨name⟩
  | some lever => .ok lever

def inputs (registry : LeverRegistry) : NameMap Float :=
  .ofList (registry.levers.map (fun lever => (lever.definition.name, lever.value)))

def ordered (registry : LeverRegistry) : List CompiledLever :=
  (registry.levers.filterMap Lever.applied?).mergeSort
    (fun earlier later => earlier.priority ≤ later.priority)

/-- Runs one lever on a state in which all levers have published their values. -/
def check (registry : LeverRegistry) (name : String) (state : State) :
    EStateM (Halt UnknownLever) Random.WordSource LeverStatus := fun source =>
  match registry.find? name with
  | none => .error (.failure ⟨name⟩) source
  | some lever =>
    match lever.compiled with
    | .rejected errors => .ok (.invalid errors) source
    | .blank => .ok .blank source
    | .program program =>
      let scratch := state.resetScratch
      let start := { scratch with inputs := scratch.inputs.union registry.inputs }
      match program.run ⟨start, source⟩ with
      | .ok _ world => .ok (.ok world.state.inspected) world.source
      | .error (.failure error) world => .ok (.failed error) world.source
      | .error (.breakdown fault) world => .error (.breakdown fault) world.source

end LeverRegistry

end PolicyLevers
