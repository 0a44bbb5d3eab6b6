import PolicyLevers.Decimal.Binary

/-!
# The shortest decimal digits of a double

The reals that round to a double form an interval around it.  The digits chosen for a double are
those of a decimal in that interval with the fewest digits, and of these the nearest.  The search
tries one digit, then two, and so on, and compares only natural numbers.
-/

namespace PolicyLevers.Decimal

set_option autoImplicit false

/-- The decimal `digits * 10 ^ exponent`. -/
structure Dec where
  digits : Nat
  exponent : Int
  deriving DecidableEq, Repr

inductive Tie where
  | up
  | even
  deriving DecidableEq, Repr

structure Ratio where
  numerator : Nat
  denominator : Nat

namespace Ratio

def le (left right : Ratio) : Bool :=
  left.numerator * right.denominator ≤ right.numerator * left.denominator

def lt (left right : Ratio) : Bool :=
  left.numerator * right.denominator < right.numerator * left.denominator

def scale (ratio : Ratio) (base : Nat) (exponent : Int) : Ratio :=
  if exponent < 0 then ⟨ratio.numerator, ratio.denominator * Nat.pow base exponent.natAbs⟩
  else ⟨ratio.numerator * Nat.pow base exponent.natAbs, ratio.denominator⟩

end Ratio

def Dec.toRatio (dec : Dec) : Ratio := Ratio.scale ⟨dec.digits, 1⟩ 10 dec.exponent

def Binary.toRatio (parts : Binary) : Ratio := Ratio.scale ⟨parts.mantissa, 1⟩ 2 parts.exponent

/-- The lower end of the interval that rounds to the value. -/
def Binary.low (parts : Binary) : Ratio :=
  if parts.narrowBelow then Ratio.scale ⟨4 * parts.mantissa - 1, 4⟩ 2 parts.exponent
  else Ratio.scale ⟨2 * parts.mantissa - 1, 2⟩ 2 parts.exponent

def Binary.high (parts : Binary) : Ratio :=
  Ratio.scale ⟨2 * parts.mantissa + 1, 2⟩ 2 parts.exponent

/-- The decimal rounds to the value: it lies in the interval, whose ends count when the mantissa is
even. -/
def Binary.readsBack (parts : Binary) (dec : Dec) : Bool :=
  let point := dec.toRatio
  if parts.mantissa % 2 = 0 then parts.low.le point && point.le parts.high
  else parts.low.lt point && point.lt parts.high

/-- The number of digits before the point of a positive value, or minus the zeros after it: the
least `k` with value below `10 ^ k`. -/
def Binary.magnitude (parts : Binary) : Int :=
  let bits : Int := parts.exponent + (Nat.log2 parts.mantissa : Int)
  -- `10 ^ guess` is at most one step below the value's power of ten
  let guess : Int := (bits * 30103).fdiv 100000
  let below (k : Int) : Bool := parts.toRatio.lt (Dec.toRatio ⟨1, k⟩)
  if below guess then guess else if below (guess + 1) then guess + 1 else guess + 2

/-- The decimal nearest to the value among its two neighbours on the grid `10 ^ exponent`, if one of
them reads back. -/
def Binary.onGrid (parts : Binary) (tie : Tie) (exponent : Int) : Option Dec :=
  let scaled := Ratio.scale parts.toRatio 10 (-exponent)
  let floor := scaled.numerator / scaled.denominator
  let lower : Dec := ⟨floor, exponent⟩
  let upper : Dec := ⟨floor + 1, exponent⟩
  let half : Ratio := ⟨2 * floor + 1, 2⟩
  let preferLower : Bool :=
    scaled.lt half || (scaled.le half && tie == .even && floor % 2 == 0)
  match parts.readsBack lower, parts.readsBack upper with
  | true, true => some (if preferLower then lower else upper)
  | true, false => some lower
  | false, true => some upper
  | false, false => none

/-- A decimal without zeros at its end; `limit` bounds how many are taken off. -/
def Dec.strip (dec : Dec) : Nat → Dec
  | 0 => dec
  | limit + 1 =>
    if dec.digits % 10 = 0 then Dec.strip ⟨dec.digits / 10, dec.exponent + 1⟩ limit else dec

/-- The shortest decimal that rounds to a positive value.  Seventeen digits always suffice; the last
alternative is the exact value. -/
def Binary.shortest (parts : Binary) (tie : Tie) : Dec :=
  let magnitude := parts.magnitude
  let found := (List.range 17).findSome? (fun (count : Nat) => parts.onGrid tie (magnitude - (count + 1)))
  match found with
  | some dec => dec.strip 17
  | none =>
    if parts.exponent < 0 then
      ⟨parts.mantissa * Nat.pow 5 parts.exponent.natAbs, parts.exponent⟩
    else ⟨parts.mantissa * Nat.pow 2 parts.exponent.natAbs, 0⟩

end PolicyLevers.Decimal
