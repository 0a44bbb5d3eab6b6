import PolicyLevers.CommandLine.Arguments
import PolicyLevers.Decimal.Reading
import PolicyLevers.Text.Blank

/-!
# Commands

The two commands of the program and their arguments.  Options that are not repeatable may be given once,
and a path is never empty.
-/

namespace PolicyLevers.CommandLine

set_option autoImplicit false

structure RunArguments where
  job : Option String := none
  /-- Where the projection is written; to standard output if there is none. -/
  output : Option String := none
  errorFile : Option String := none
  deriving DecidableEq

structure CheckArguments where
  /-- The file of the script; standard input if there is none. -/
  script : Option String := none
  /-- The year whose frame the script is run on. -/
  year : Option Int := none
  baseline : Option String := none
  inputs : List (String × Float) := []
  deriving DecidableEq

inductive Command where
  | run (job : String) (output errorFile : Option String)
  | check (arguments : CheckArguments)
  deriving DecidableEq

inductive Invocation where
  | command (command : Command)
  | help (text : String)
  | invalid
  deriving DecidableEq

def programHelp : String :=
  "Run projection jobs and check lever scripts

Usage: plastics <COMMAND>

Commands:
  run    Run a job file and write the projection set as JSON
  check  Compile a lever script and report its errors
  help   Print this message or the help of the given subcommand(s)

Options:
  -h, --help  Print help
"

def runHelp : String :=
  "Run a job file and write the projection set as JSON

Usage: plastics run [OPTIONS] <JOB>

Arguments:
  <JOB>  Job description (JSON)

Options:
  -o, --output <OUTPUT>          Where to write the projection set (stdout if not given)
      --error-file <ERROR_FILE>  Where to write the failure message if the run fails
  -h, --help                     Print help
"

def checkHelp : String :=
  "Compile a lever script and report its errors

Usage: plastics check [OPTIONS] [SCRIPT]

Arguments:
  [SCRIPT]  Script file (if not provided, reads from stdin)

Options:
      --year <YEAR>          Run the script against this year's frame
      --baseline <BASELINE>  Baseline CSV used to fill the frame's ledger
      --input <INPUTS>       Lever input as NAME=VALUE (repeatable)
  -h, --help                 Print help
"

def helpHelp : String :=
  "Print this message or the help of the given subcommand(s)

Usage: plastics help [COMMAND]...

Arguments:
  [COMMAND]...  Print help for the subcommand(s)
"

def fillPath (place : Option String) (value : String) : Option (Option String) :=
  if place.isSome || value.isEmpty then none else some (some value)

def acceptRun (arguments : RunArguments) : Argument → Option RunArguments
  | .operand value => do pure { arguments with job := ← fillPath arguments.job value }
  | .option "output" value => do pure { arguments with output := ← fillPath arguments.output value }
  | .option "error-file" value => do
    pure { arguments with errorFile := ← fillPath arguments.errorFile value }
  | .option _ _ => none

def readInput (text : String) : Option (String × Float) := do
  let (name, value) ← Text.cutAt '=' text.toList
  let value ← Decimal.readFloat (Text.trim value)
  pure (String.ofList (Text.trim name), value)

def acceptCheck (arguments : CheckArguments) : Argument → Option CheckArguments
  | .operand value => do pure { arguments with script := ← fillPath arguments.script value }
  | .option "year" value => do
    let year ← Decimal.readInt32 value.toList
    if arguments.year.isSome then none else pure { arguments with year := some year }
  | .option "baseline" value => do
    pure { arguments with baseline := ← fillPath arguments.baseline value }
  | .option "input" value => do
    pure { arguments with inputs := arguments.inputs ++ [← readInput value] }
  | .option _ _ => none

def Invocation.ofRefusal (help : String) : Refusal → Invocation
  | .help => .help help
  | .invalid => .invalid

def readRun (arguments : List String) : Invocation :=
  match takeArguments [⟨"output", some 'o'⟩, ⟨"error-file", none⟩] acceptRun {} arguments with
  | .error refusal => .ofRefusal runHelp refusal
  | .ok read =>
    match read.job with
    | some job => .command (.run job read.output read.errorFile)
    | none => .invalid

/-- A baseline is of use only with a year. -/
def readCheck (arguments : List String) : Invocation :=
  match takeArguments [⟨"year", none⟩, ⟨"baseline", none⟩, ⟨"input", none⟩] acceptCheck {}
      arguments with
  | .error refusal => .ofRefusal checkHelp refusal
  | .ok read =>
    if read.baseline.isSome && read.year.isNone then .invalid else .command (.check read)

def Invocation.read : List String → Invocation
  | "run" :: arguments => readRun arguments
  | "check" :: arguments => readCheck arguments
  | ["help"] => .help programHelp
  | ["help", "run"] => .help runHelp
  | ["help", "check"] => .help checkHelp
  | ["help", "help"] => .help helpHelp
  | first :: _ =>
    match CommandLine.read [] first with
    | .refusal refusal => .ofRefusal programHelp refusal
    | _ => .invalid
  | [] => .invalid

end PolicyLevers.CommandLine
