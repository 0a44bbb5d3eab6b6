import PolicyLevers.Projection.Engine

/-!
# Runs in the background

A client sends requests to a worker and receives its responses.  Both travel in order.  The worker takes
one request at a time and answers each under the request's index.  The client numbers its requests and
hands out only the response to the latest one, each response once; all others are dropped.
-/

namespace PolicyLevers

set_option autoImplicit false

inductive WorkerError where
  | run (failure : RunFailure)
  | panicked (index : Nat) (message : String)
  /-- Nothing was requested that is still open. -/
  | disconnected
  deriving DecidableEq

def WorkerError.message : WorkerError → String
  | run failure => failure.message
  | panicked index message => "Run " ++ toString index ++ " panicked: " ++ message
  | disconnected => "Worker is not running"

structure RunResponse where
  index : Nat
  outcome : Except WorkerError Projection

/-- The answer of an engine to a request.  A breakdown ends the run, not the worker. -/
def Engine.respond (engine : Engine) (request : RunRequest) : RunResponse :=
  ⟨request.index,
    match engine.run request with
    | .ok projection => .ok projection
    | .error (.failure failure) => .error (.run failure)
    | .error (.breakdown fault) => .error (.panicked request.index fault.message)⟩

structure WorkerSystem where
  engine : Engine
  /-- Sent and not yet taken, the oldest first. -/
  requests : List RunRequest := []
  /-- Taken and not yet answered. -/
  running : Option RunRequest := none
  /-- Answered and not yet received, the oldest first. -/
  responses : List RunResponse := []
  nextIndex : Nat := 0
  /-- The latest request whose response was not handed out. -/
  latest : Option Nat := none

namespace WorkerSystem

def request (system : WorkerSystem) (historical projected : YearRange)
    (levers : List CompiledLever) (inputs : NameMap Float) : WorkerSystem :=
  { system with
    requests := system.requests ++ [⟨system.nextIndex, historical, projected, levers, inputs⟩]
    nextIndex := system.nextIndex + 1
    latest := some system.nextIndex }

def take? (system : WorkerSystem) : Option WorkerSystem :=
  match system.running, system.requests with
  | none, next :: rest => some { system with requests := rest, running := some next }
  | _, _ => none

def reply? (system : WorkerSystem) : Option WorkerSystem :=
  system.running.map (fun request =>
    { system with
      running := none
      responses := system.responses ++ [system.engine.respond request] })

/-- The first response to the latest request, and what lies behind it. -/
def select (latest : Option Nat) : List RunResponse → Option (RunResponse × List RunResponse)
  | [] => none
  | response :: rest => if latest = some response.index then some (response, rest) else select latest rest

/-- The client receives responses up to the one to its latest request, if that has arrived. -/
def poll (system : WorkerSystem) : Option RunResponse × WorkerSystem :=
  match select system.latest system.responses with
  | some (response, rest) => (some response, { system with responses := rest, latest := none })
  | none => (none, { system with responses := [] })

/-- The client waits for the response to its latest request.  There is no result as long as it has not
arrived, and an error if no request is open. -/
def wait? (system : WorkerSystem) : Option (Except WorkerError RunResponse × WorkerSystem) :=
  match system.latest with
  | none => some (.error .disconnected, system)
  | some _ =>
    match system.poll with
    | (some response, system) => some (.ok response, system)
    | (none, _) => none

def work (system : WorkerSystem) : Nat → WorkerSystem
  | 0 => system
  | count + 1 =>
    match system.reply? with
    | some answered => answered.work count
    | none =>
      match system.take? with
      | some taken => taken.work count
      | none => system

/-- The worker takes and answers all requests sent so far, two steps for each. -/
def finish (system : WorkerSystem) : WorkerSystem := system.work (2 * system.requests.length + 1)

end WorkerSystem

end PolicyLevers
