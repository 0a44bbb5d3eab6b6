import PolicyLevers.CommandLine.Command
import PolicyLevers.Job.Basic
import PolicyLevers.Report.Render
import PolicyLevers.Text.FilePath

/-!
# Carrying out commands

Commands are carried out on a host, which gives access to files and the standard streams.  Everything
else is a function of what the host has read.
-/

namespace PolicyLevers.CommandLine

set_option autoImplicit false

/-- Access to the surroundings of the program. -/
structure Host (m : Type → Type) where
  contentOf : String → m FileContent
  /-- Writes a text to a file; `false` if it cannot. -/
  store : String → String → m Bool
  /-- All of standard input; nothing if it is no text. -/
  input : m (Option String)
  print : String → m Unit
  complain : String → m Unit
  /-- A seed that no one can foresee. -/
  freshSeed : m UInt64

inductive Exit where
  | success
  | failure
  | usage
  | breakdown
  deriving DecidableEq, Repr

def Exit.code : Exit → Nat
  | success => 0
  | failure => 1
  | usage => 2
  | breakdown => 101

/-- An end of the program with a message for the stream for errors. -/
structure Complaint where
  exit : Exit
  message : String
  deriving DecidableEq

abbrev CheckOutcome := Except Complaint String

def refuse {α : Type} (message : String) : Except Complaint α := .error ⟨.failure, message⟩

def inspectedLines (inspected : List InspectRecord) : String :=
  String.join (inspected.map (fun entry => entry.name ++ " = " ++ Decimal.plain.render entry.value ++ "\n"))

def checkRegistry (source : String) : LeverRegistry :=
  (LeverRegistry.empty {}).register { name := "script", script := source }

def checkState (year : Int) (regions : RegionTable) (inputs : List (String × Float)) : State :=
  { State.forYear year with
    ledger := regions.mapValues (fun _ attributes => .region attributes)
    inputs := .ofList inputs }

def checkOn (source : String) (seed : UInt64) (state : State) : CheckOutcome :=
  match (checkRegistry source).check "script" state (Random.ChaCha.source seed 0) with
  | .ok .blank _ => .ok "blank script\n"
  | .ok (.ok inspected) _ => .ok (inspectedLines inspected ++ "ok\n")
  | .ok (.failed error) _ => refuse error.message
  | .ok (.invalid errors) _ => refuse (String.intercalate "\n" (errors.map ScriptError.message))
  | .error (.failure error) _ => refuse error.message
  | .error (.breakdown fault) _ => .error ⟨.breakdown, fault.message⟩

def checkRegions (year : Int) : Option FileContent → Except Complaint RegionTable
  | none => .ok ∅
  | some (.text content) =>
    match BaselineTable.read content with
    | .error fault => refuse fault.message
    | .ok baseline =>
      match baseline.regions? year with
      | some regions => .ok regions
      | none => refuse ("Baseline has no data for " ++ toString year)
  | some _ => refuse "Could not read the baseline"

def reports (source : String) (errors : List ScriptError) : String :=
  String.join (errors.map (fun error => Report.render source error.diagnostic)) ++
    toString errors.length ++ " error(s) in script"

def check (arguments : CheckArguments) (source : String) (seed : UInt64)
    (baseline : Option FileContent) : CheckOutcome :=
  match (compile {} source).errors with
  | [] =>
    match arguments.year with
    | none => .ok "ok\n"
    | some year => do
      let regions ← checkRegions year baseline
      checkOn source seed (checkState year regions arguments.inputs)
  | errors => refuse (reports source errors)

section

variable {m : Type → Type} [Monad m]

def giveUp (host : Host m) (exit : Exit) (message : String) : m Exit := do
  host.complain message
  pure exit

def writeProjection (host : Host m) (output : Option String) (projection : Projection) : m Exit := do
  let text := String.ofList projection.toJson.pretty
  match output with
  | none =>
    host.print (text ++ "\n")
    pure .success
  | some path =>
    if ← host.store path text then pure .success
    else giveUp host .failure ("Could not write " ++ path)

def executeRun (host : Host m) (path : String) (output errorFile : Option String) : m Exit := do
  match Job.read path (← host.contentOf path) with
  | .error error => giveUp host .failure error.message
  | .ok job =>
    let baselinePath := Text.joinPath (Text.parentPath path) job.baseline
    let baseline ← host.contentOf baselinePath
    match job.run (← host.freshSeed) baselinePath baseline with
    | .ok projection => writeProjection host output projection
    | .error (.breakdown fault) => giveUp host .breakdown fault.message
    | .error (.failure error) =>
      match errorFile with
      | none => giveUp host .failure error.message
      | some path =>
        let _ ← host.store path error.message
        giveUp host .failure error.message

def readScript (host : Host m) : Option String → m (Option String)
  | none => host.input
  | some path => do
    match ← host.contentOf path with
    | .text content => pure (some content)
    | _ => pure none

def executeCheck (host : Host m) (arguments : CheckArguments) : m Exit := do
  match ← readScript host arguments.script with
  | none => giveUp host .failure "Could not read the script"
  | some source =>
    let baseline ←
      match arguments.baseline with
      | none => pure none
      | some path => do pure (some (← host.contentOf path))
    match check arguments source (← host.freshSeed) baseline with
    | .error complaint => giveUp host complaint.exit complaint.message
    | .ok text =>
      host.print text
      pure .success

def execute (host : Host m) (arguments : List String) : m Exit := do
  match Invocation.read arguments with
  | .invalid => giveUp host .usage programHelp
  | .help text =>
    host.print text
    pure .success
  | .command (.run job output errorFile) => executeRun host job output errorFile
  | .command (.check arguments) => executeCheck host arguments

end

end PolicyLevers.CommandLine
