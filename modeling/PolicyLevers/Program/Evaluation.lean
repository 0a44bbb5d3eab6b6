import PolicyLevers.Ledger.State
import PolicyLevers.Program.Basic
import PolicyLevers.Random.Normal
import PolicyLevers.Random.Uniform

/-!
# Evaluation

Expressions read a state and draw from a source of random words.  Operands are evaluated from left to
right, of a conditional only the branch taken, and the first failure ends the evaluation.  Whatever was
drawn before it stays drawn.
-/

namespace PolicyLevers

set_option autoImplicit false

/-- What stops a sampler, other than its parameters. -/
inductive SamplerFault where
  /-- The width of an interval divided by the largest fraction is beyond the range of doubles. -/
  | intervalTooWide
  /-- All candidates for a normal number were rejected. -/
  | candidatesExhausted
  deriving DecidableEq, Repr

def SamplerFault.message : SamplerFault → String
  | intervalTooWide => "Uniform::new_inclusive: range overflow"
  | candidatesExhausted => "no candidate was accepted"

inductive Halt (ε : Type) where
  | failure (error : ε)
  /-- A sampler broke down, which counts as no failure of a script. -/
  | breakdown (fault : SamplerFault)
  deriving DecidableEq

def Halt.map {ε δ : Type} (change : ε → δ) : Halt ε → Halt δ
  | failure error => .failure (change error)
  | breakdown fault => .breakdown fault

abbrev Drawing := EStateM (Halt RuntimeError) Random.WordSource

def Drawing.ofExcept {α : Type} (result : Except RuntimeError α) : Drawing α := fun source =>
  match result with
  | .ok value => .ok value source
  | .error error => .error (.failure error) source

/-- A sampler as a computation; the fault tells why it may have no result. -/
def Drawing.ofSampler {α : Type} (fault : SamplerFault)
    (sample : Random.WordSource → Option (α × Random.WordSource)) : Drawing α := fun source =>
  match sample source with
  | some (value, source) => .ok value source
  | none => .error (.breakdown fault) source

/-- A uniform draw.  The bounds must be in order and finitely far apart. -/
def drawUniform (low high : Float) : Drawing Float :=
  if low ≤ high && (high - low).isFinite then
    .ofSampler .intervalTooWide (Random.Uniform.draw low high)
  else throw (.failure (.distribution (.bounds low high)))

/-- A normal draw.  The standard deviation must be finite and not negative. -/
def drawNormal (mean deviation : Float) : Drawing Float :=
  if deviation.isFinite && deviation ≥ 0.0 then
    .ofSampler .candidatesExhausted (Random.Normal.draw mean deviation)
  else throw (.failure (.distribution (.deviation deviation)))

namespace Lifecycle

structure Means where
  weighted : Float
  magnitudes : Float
  lifetimes : Float

def sumPairs (state : State) (sums : Means) : List (Path × Path) → Except RuntimeError Means
  | [] => .ok sums
  | (ledger, lifetime) :: rest => do
    let magnitude ← state.get ledger
    let years ← state.get lifetime
    sumPairs state
      ⟨sums.weighted + years * magnitude, sums.magnitudes + magnitude, sums.lifetimes + years⟩ rest

/-- The lifetime asked for.  Lifetimes of consumption are weighted by magnitude; if the magnitudes add
up to zero, each counts the same. -/
def evaluate (state : State) : Lifecycle → Except RuntimeError Float
  | endOfLife delay => state.get delay
  | consumption pairs => do
    let sums ← sumPairs state ⟨0.0, 0.0, 0.0⟩ pairs
    pure (if sums.magnitudes == 0.0 then sums.lifetimes / Float.ofNat pairs.length
      else sums.weighted / sums.magnitudes)
  | mixed => .error .mixedLifecycle
  | unknown path => .error (.unknownLifecycle path)

end Lifecycle

/-- How often a body is repeated for an evaluated count: its whole part, from one to the limit. -/
def repetitions? (limit : Nat) (count : Float) : Option Nat :=
  let whole := Decimal.truncate count
  if count ≥ 1.0 && count.isFinite && Decimal.ofInt whole ≤ Float.ofNat limit then
    some whole.toNat
  else none

namespace Script.Reducer

def start : Reducer → Float
  | .sum => 0.0
  | .product => 1.0
  | .average => 0.0

def step : Reducer → Float → Float → Float
  | .sum, total, value => total + value
  | .product, total, value => total * value
  | .average, total, value => total + value

def finish : Reducer → Float → Nat → Float
  | .average, total, count => total / Float.ofNat count
  | _, total, _ => total

end Script.Reducer

/-- Repeats a computation and takes in its values one after another. -/
def accumulate (reducer : Script.Reducer) (body : Drawing Float) : Nat → Float → Drawing Float
  | 0, total => pure total
  | count + 1, total => do
    let value ← body
    accumulate reducer body count (reducer.step total value)

def Expression.evaluate (repeatLimit : Nat) (state : State) : Expression → Drawing Float
  | .number value => pure value
  | .read path => .ofExcept (state.get path)
  | .binary op left right => do
    let leftValue ← left.evaluate repeatLimit state
    let rightValue ← right.evaluate repeatLimit state
    pure (op.apply leftValue rightValue)
  | .conditional test left right consequent alternative => do
    let leftValue ← left.evaluate repeatLimit state
    let rightValue ← right.evaluate repeatLimit state
    if test.holds leftValue rightValue then consequent.evaluate repeatLimit state
    else alternative.evaluate repeatLimit state
  | .lifecycle query => .ofExcept (query.evaluate state)
  | .uniform low high => do
    let lowValue ← low.evaluate repeatLimit state
    let highValue ← high.evaluate repeatLimit state
    drawUniform lowValue highValue
  | .normal mean deviation => do
    let meanValue ← mean.evaluate repeatLimit state
    let deviationValue ← deviation.evaluate repeatLimit state
    drawNormal meanValue deviationValue
  | .repeated reducer count body => do
    let countValue ← count.evaluate repeatLimit state
    match repetitions? repeatLimit countValue with
    | none => throw (.failure (.repeatCount countValue repeatLimit))
    | some repetitions =>
      let total ← accumulate reducer (body.evaluate repeatLimit state) repetitions reducer.start
      pure (reducer.finish total repetitions)

end PolicyLevers
