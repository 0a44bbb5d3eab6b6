import PolicyLevers.Decimal.Shortest

/-!
# How digits are laid out

The digits of a double are fixed by `Binary.shortest`; a `Layout` decides the rest of its text: which
powers of ten are written as plain positions, how an exponent looks, and what a whole number ends in.
The program writes numbers in three layouts.
-/

namespace PolicyLevers.Decimal

set_option autoImplicit false

/-- The decisions a number format makes about digits that are already chosen. -/
structure Layout where
  /-- The powers of ten of the leading digit that are written positionally. -/
  positional : Int → Bool
  /-- What follows a whole number in positional notation. -/
  wholeEnd : String
  exponentSign : String
  tie : Tie

/-- Messages and listings: always positional, whole numbers without a point. -/
def plain : Layout := ⟨fun _ => true, "", "", .up⟩

/-- Exchanged values: one digit before the point and a power of ten, always. -/
def scientific : Layout := ⟨fun _ => false, "", "", .up⟩

/-- Documents: positional from `1e-5` up to but not including `1e16`, whole numbers end in `.0`,
exponents carry their sign. -/
def document : Layout := ⟨fun exponent => decide (-5 ≤ exponent) && decide (exponent < 16), ".0", "+", .even⟩

/-- Digits with a point after the first `position` of them, zeros filling up on either side. -/
def placePoint (digits : List Char) (position : Int) (wholeEnd : String) : List Char :=
  if position ≤ 0 then
    "0.".toList ++ List.replicate position.natAbs '0' ++ digits
  else if position < digits.length then
    digits.take position.natAbs ++ '.' :: digits.drop position.natAbs
  else
    digits ++ List.replicate (position.natAbs - digits.length) '0' ++ wholeEnd.toList

def placeExponent (digits : List Char) (exponent : Int) (exponentSign : String) : List Char :=
  let fraction := if digits.length ≤ 1 then [] else '.' :: digits.drop 1
  let sign := if exponent < 0 then "-" else exponentSign
  digits.take 1 ++ fraction ++ 'e' :: sign.toList ++ Nat.toDigits 10 exponent.natAbs

def Layout.magnitude (layout : Layout) (value : Float) : List Char :=
  let parts := Binary.ofFloat value
  let dec := if parts.mantissa = 0 then ⟨0, 0⟩ else parts.shortest layout.tie
  let digits := Nat.toDigits 10 dec.digits
  let exponent : Int := dec.exponent + digits.length - 1
  if layout.positional exponent then placePoint digits (exponent + 1) layout.wholeEnd
  else placeExponent digits exponent layout.exponentSign

/-- The text of a double; no number is never signed. -/
def Layout.render (layout : Layout) (value : Float) : String :=
  if value.isNaN then "NaN"
  else
    let sign := if isNegative value then ['-'] else []
    let size := if value.isInf then "inf".toList else layout.magnitude value
    String.ofList (sign ++ size)

end PolicyLevers.Decimal
