/-!
# The parts of a double

A finite double is a sign and `mantissa * 2 ^ exponent`.  Everything here is exact arithmetic on the
bits, so whole parts and decimal digits never pass through a rounded intermediate.
-/

namespace PolicyLevers.Decimal

set_option autoImplicit false

/-- A finite double without its sign: `mantissa * 2 ^ exponent`. -/
structure Binary where
  mantissa : Nat
  exponent : Int
  /-- The gap to the double below is half the gap to the double above. -/
  narrowBelow : Bool
  deriving DecidableEq, Repr

/-- The sign of a double; a negative zero counts as negative. -/
def isNegative (value : Float) : Bool := value.toBits >>> 63 == 1

def Binary.ofFloat (value : Float) : Binary :=
  let bits := value.toBits
  let exponent := ((bits >>> 52) &&& 0x7FF).toNat
  let fraction := (bits &&& 0xFFFFFFFFFFFFF).toNat
  if exponent = 0 then ⟨fraction, -1074, false⟩
  else ⟨0x10000000000000 + fraction, (exponent : Int) - 1075, fraction = 0 && 1 < exponent⟩

/-- The largest whole number that is at most `mantissa * 2 ^ exponent`. -/
def Binary.whole (parts : Binary) : Nat :=
  if parts.exponent < 0 then parts.mantissa / Nat.pow 2 parts.exponent.natAbs
  else parts.mantissa * Nat.pow 2 parts.exponent.natAbs

def truncate (value : Float) : Int :=
  let whole : Int := (Binary.ofFloat value).whole
  if isNegative value then -whole else whole

/-- The 32-bit integer of a double: its whole part, kept within the range; no number counts as 0. -/
def truncateInt32 (value : Float) : Int :=
  if value.isNaN then 0
  else if value.isInf then (if isNegative value then -0x80000000 else 0x7FFFFFFF)
  else max (-0x80000000) (min 0x7FFFFFFF (truncate value))

def ofInt (value : Int) : Float :=
  match value with
  | .ofNat n => Float.ofNat n
  | .negSucc n => -Float.ofNat (n + 1)

end PolicyLevers.Decimal
