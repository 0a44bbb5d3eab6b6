/-!
# Decimal numbers as text

Reading turns decimal text into the nearest double, ties to the even neighbour.  A number may lack
the digits on one side of its point, carries at most one sign, and admits no blanks; `inf`,
`infinity` and `nan` are read in any case of letters.
-/

namespace PolicyLevers.Decimal

set_option autoImplicit false

def digitsValue (digits : List Char) : Nat :=
  digits.foldl (fun value c => 10 * value + (c.toNat - '0'.toNat)) 0

def infinity : Float := Float.ofBits 0x7FF0000000000000

def notNumber : Float := Float.ofBits 0x7FF8000000000000

def digitCount (value : Nat) : Nat := (Nat.toDigits 10 value).length

/-- The double nearest to `mantissa * 10 ^ exponent`.  Numbers beyond the range of doubles are
decided by their size alone, so that no huge power is ever formed. -/
def nearest (mantissa : Nat) (exponent : Int) : Float :=
  let size := exponent + digitCount mantissa
  if mantissa = 0 then 0.0
  else if size > 310 then infinity
  else if size < -330 then 0.0
  else Float.ofScientific mantissa (exponent < 0) exponent.natAbs

structure Magnitude where
  whole : List Char
  fraction : List Char
  exponent : Int
  deriving DecidableEq, Repr

def Magnitude.toFloat (magnitude : Magnitude) : Float :=
  nearest (digitsValue (magnitude.whole ++ magnitude.fraction))
    (magnitude.exponent - magnitude.fraction.length)

def splitSign : List Char → Bool × List Char
  | '-' :: rest => (true, rest)
  | '+' :: rest => (false, rest)
  | text => (false, text)

/-- All of `text` as the exponent of a number: nothing, or `e`, an optional sign and digits. -/
def readExponent : List Char → Option Int
  | [] => some 0
  | mark :: rest =>
    let (negative, digits) := splitSign rest
    if (mark = 'e' || mark = 'E') && !digits.isEmpty && digits.all Char.isDigit then
      some (if negative then -(digitsValue digits : Int) else digitsValue digits)
    else none

def readMagnitude (text : List Char) : Option Magnitude :=
  let whole := text.takeWhile Char.isDigit
  let afterWhole := text.dropWhile Char.isDigit
  let (fraction, afterFraction) :=
    match afterWhole with
    | '.' :: rest => (rest.takeWhile Char.isDigit, rest.dropWhile Char.isDigit)
    | rest => ([], rest)
  if whole.isEmpty && fraction.isEmpty then none
  else (readExponent afterFraction).map (fun exponent => ⟨whole, fraction, exponent⟩)

def readUnsigned (text : List Char) : Option Float :=
  let name := String.ofList (text.map Char.toLower)
  if name = "inf" || name = "infinity" then some infinity
  else if name = "nan" then some notNumber
  else (readMagnitude text).map Magnitude.toFloat

def readFloat (text : List Char) : Option Float :=
  let (negative, rest) := splitSign text
  (readUnsigned rest).map (fun value => if negative then -value else value)

def readInt (text : List Char) : Option Int :=
  let (negative, digits) := splitSign text
  if !digits.isEmpty && digits.all Char.isDigit then
    some (if negative then -(digitsValue digits : Int) else digitsValue digits)
  else none

def readInt32 (text : List Char) : Option Int :=
  (readInt text).filter (fun value => -0x80000000 ≤ value && value < 0x80000000)

end PolicyLevers.Decimal
