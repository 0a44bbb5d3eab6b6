import PolicyLevers.Decimal.Layout

/-!
# Failures of a running program

What can go wrong while a program runs, each with its message and its code.
-/

namespace PolicyLevers

set_option autoImplicit false

inductive DistributionFault where
  /-- The bounds of a uniform draw are out of order, no numbers, or infinitely far apart. -/
  | bounds (low high : Float)
  | deviation (value : Float)
  deriving DecidableEq

inductive RuntimeError where
  /-- A path cannot be resolved; `segment` is its first segment that leads nowhere. -/
  | notFound (segment path : String)
  /-- A path names a whole region. -/
  | notANumber (path : String)
  | duplicateLocal (name : String)
  | mixedLifecycle
  | unknownLifecycle (path : String)
  | yearRange (start finish : Float)
  | missingBaseline (year : Int)
  | missingYear
  | repeatCount (count : Float) (limit : Nat)
  | distribution (fault : DistributionFault)
  deriving DecidableEq

namespace DistributionFault

def message : DistributionFault → String
  | bounds low high =>
    "cannot draw uniformly from " ++ Decimal.plain.render low ++ " to " ++ Decimal.plain.render high
  | deviation value =>
    "standard deviation must be non-negative, got " ++ Decimal.plain.render value

end DistributionFault

namespace RuntimeError

def message : RuntimeError → String
  | notFound segment path => "Could not find " ++ segment ++ " (" ++ path ++ ")"
  | notANumber path => path ++ " is not a number"
  | duplicateLocal name => name ++ " was defined multiple times."
  | mixedLifecycle => "Cannot mix lifetimes of waste and consumption"
  | unknownLifecycle path => "Could not find lifetimes for " ++ path
  | yearRange start finish =>
    "Start year must be earlier than end year for change (got " ++ Decimal.plain.render start ++
      " to " ++ Decimal.plain.render finish ++ ")."
  | missingBaseline year => "No baseline data for year " ++ toString year
  | missingYear => "State has no meta.year"
  | repeatCount count limit =>
    "Repeat count must be between 1 and " ++ toString limit ++ " (got " ++
      Decimal.plain.render count ++ ")"
  | distribution fault => "Invalid distribution: " ++ fault.message

/-- The code under which a failure is documented. -/
def code : RuntimeError → String
  | notFound _ _ => "R001"
  | notANumber _ => "R002"
  | duplicateLocal _ => "R003"
  | mixedLifecycle => "R004"
  | unknownLifecycle _ => "R005"
  | yearRange _ _ => "R006"
  | missingBaseline _ => "R007"
  | missingYear => "R008"
  | repeatCount _ _ => "R009"
  | distribution _ => "R010"

end RuntimeError

end PolicyLevers
