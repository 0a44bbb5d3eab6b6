import PolicyLevers.Random.WordSource

/-!
# Uniform draws

A draw from the closed interval `[low, high]` takes one word.  The width is divided by the largest
fraction a word can stand for, so that both ends can be reached; a quotient that rounds up is made
smaller until the largest draw is not above `high`.
-/

namespace PolicyLevers.Random.Uniform

set_option autoImplicit false

/-- The largest fraction a word stands for, `1 - 2 ^ -52`. -/
def largestFraction : Float := Float.ofBits 0x3FEFFFFFFFFFFFFE

/-- The largest double with at most these bits that keeps the largest draw at or below `high`. -/
def fitScale (low high : Float) : Nat → Float
  | 0 => Float.ofBits 0
  | bits + 1 =>
    let scale := Float.ofBits (UInt64.ofNat (bits + 1))
    if scale * largestFraction + low > high then fitScale low high bits else scale

/-- The factor from fractions to the width of the interval, or nothing if it is beyond the range of
doubles. -/
def scale? (low high : Float) : Option Float :=
  let scale := (high - low) / largestFraction
  if scale.isFinite then some (fitScale low high scale.toBits.toNat) else none

/-- A draw from `[low, high]`, or nothing if the interval is too wide. -/
def draw (low high : Float) (source : WordSource) : Option (Float × WordSource) :=
  (scale? low high).map (fun scale =>
    let (word, source) := source.next
    ((unitFraction word - 1.0) * scale + low, source))

end PolicyLevers.Random.Uniform
