import PolicyLevers.Ledger.Total
import PolicyLevers.Program.Evaluation

/-!
# Running programs

Instructions change the state one after another until one fails.  What was done before a failure stays
done.  An instruction evaluates all its expressions and makes all its checks before it writes.
-/

namespace PolicyLevers

set_option autoImplicit false

structure World where
  state : State
  source : Random.WordSource

/-- A computation that changes a state and draws random words. -/
abbrev Running := EStateM (Halt RuntimeError) World

namespace Running

def reading {α : Type} (read : State → Drawing α) : Running α := fun world =>
  match read world.state world.source with
  | .ok value source => .ok value { world with source := source }
  | .error halt source => .error halt { world with source := source }

def writing (write : State → Except RuntimeError State) : Running Unit := fun world =>
  match write world.state with
  | .ok state => .ok () { world with state := state }
  | .error error => .error (.failure error) world

def get (path : Path) : Running Float := reading (fun state => .ofExcept (state.get path))

def set (path : Path) (value : Float) : Running Unit := writing (fun state => state.set path value)

end Running

/-- The nearest value between two optional bounds; the upper one is looked at first. -/
def clamp (lower upper : Option Float) (value : Float) : Float :=
  if upper.any (fun bound => value > bound) then upper.getD value
  else if lower.any (fun bound => value < bound) then lower.getD value
  else value

/-- Amounts smaller than this are not distributed. -/
def distributeThreshold : Float := 1e-7

/-- A place to distribute to, as found before the first write. -/
structure Portion where
  path : Path
  before : Float
  weight : Float

def readPortions (repeatLimit : Nat) : List (Path × Option Expression) → Running (List Portion)
  | [] => pure []
  | (path, weight) :: rest => do
    let before ← Running.get path
    let weight ←
      match weight with
      | some weight => Running.reading (fun state => weight.evaluate repeatLimit state)
      | none => pure before
    let portions ← readPortions repeatLimit rest
    pure (⟨path, before, weight⟩ :: portions)

/-- The part of an amount that goes to a portion.  Without any weight at all the parts are equal. -/
def share (split : Script.Split) (portions : List Portion) (portion : Portion) : Float :=
  let weights := total (portions.map Portion.weight)
  match split with
  | .proportional =>
    if weights != 0.0 then portion.weight / weights else 1.0 / Float.ofNat portions.length
  | .linear => 1.0 / Float.ofNat portions.length

/-- Writes the new value of each portion.  A value of zero stays as it is. -/
def writePortions (amount : Float) (shareOf : Portion → Float) : List Portion → Running Unit
  | [] => pure ()
  | portion :: rest => do
    if portion.before != 0.0 then
      Running.set portion.path (portion.before + amount * shareOf portion)
    writePortions amount shareOf rest

def evaluateOptional (repeatLimit : Nat) : Option Expression → Running (Option Float)
  | none => pure none
  | some expression => do
    let value ← Running.reading (fun state => expression.evaluate repeatLimit state)
    pure (some value)

def Instruction.run (repeatLimit : Nat) : Instruction → Running Unit
  | .define name value => do
    let value ← Running.reading (fun state => value.evaluate repeatLimit state)
    Running.writing (fun state => state.defineLocal name value)
  | .assign target value => do
    let value ← Running.reading (fun state => value.evaluate repeatLimit state)
    Running.set target value
  | .limit target lower upper => do
    let lower ← evaluateOptional repeatLimit lower
    let upper ← evaluateOptional repeatLimit upper
    let current ← Running.get target
    Running.set target (clamp lower upper current)
  | .distribute value targets split => do
    let amount ← Running.reading (fun state => value.evaluate repeatLimit state)
    if amount.abs < distributeThreshold then pure ()
    else
      let portions ← readPortions repeatLimit targets
      writePortions amount (share split portions) portions
  | .change target delta start finish => do
    let delta ← Running.reading (fun state => delta.evaluate repeatLimit state)
    let start ← Running.reading (fun state => start.evaluate repeatLimit state)
    let finish ← Running.reading (fun state => finish.evaluate repeatLimit state)
    if start < finish then
      let year ← Running.reading (fun state => .ofExcept state.year)
      let reached := if finish < Decimal.ofInt year then finish else Decimal.ofInt year
      let current ← Running.get target
      Running.set target (current + delta / (finish - start) * (reached - start))
    else throw (.failure (.yearRange start finish))
  | .inspect label value => do
    let value ← Running.reading (fun state => value.evaluate repeatLimit state)
    Running.writing (fun state => .ok { state with inspected := state.inspected ++ [⟨label, value⟩] })

/-- Runs instructions in order up to the first failure. -/
def runAll (repeatLimit : Nat) : List Instruction → Running Unit
  | [] => pure ()
  | instruction :: rest => do
    instruction.run repeatLimit
    runAll repeatLimit rest

def Program.run (program : Program) : Running Unit :=
  runAll program.repeatLimit program.instructions

end PolicyLevers
