import PolicyLevers.Text.Blank

/-!
# Lines of a source

The lines that a report shows.  More characters end a line here than in a script; a carriage return and
a line feed after it end it together.  A line has its terminator with it, and an empty text has one
empty line.
-/

namespace PolicyLevers.Report

set_option autoImplicit false

def isTerminator (c : Char) : Bool :=
  c = '\r' || c = '\n' || c = '\x0b' || c = '\x0c' || c = '\u0085' || c = '\u2028' || c = '\u2029'

/-- A line and the number of characters before it. -/
structure SourceLine where
  offset : Nat
  text : List Char
  deriving DecidableEq, Repr

namespace SourceLine

/-- The number of characters of a line, its terminator included. -/
def length (line : SourceLine) : Nat := line.text.length

def stop (line : SourceLine) : Nat := line.offset + line.length

def contains (line : SourceLine) (offset : Nat) : Bool := line.offset ≤ offset && offset < line.stop

def shown (line : SourceLine) : List Char := Text.trimEnd line.text

end SourceLine

def splitLines : List Char → List (List Char)
  | [] => []
  | '\r' :: '\n' :: rest => ['\r', '\n'] :: splitLines rest
  | c :: rest =>
    if isTerminator c then [c] :: splitLines rest
    else
      match splitLines rest with
      | [] => [[c]]
      | line :: lines => (c :: line) :: lines

def placeLines (offset : Nat) : List (List Char) → List SourceLine
  | [] => []
  | line :: lines => ⟨offset, line⟩ :: placeLines (offset + line.length) lines

def sourceLines (text : List Char) : List SourceLine :=
  if text.isEmpty then [⟨0, []⟩] else placeLines 0 (splitLines text)

/-- The number of the line that an offset lies in, counted from zero; the end of the text lies in the
last line. -/
def lineIndex? (lines : List SourceLine) (offset : Nat) : Option Nat :=
  let size := (lines.getLast?.map SourceLine.stop).getD 0
  if offset ≤ size then some ((lines.takeWhile (fun line => line.offset ≤ offset)).length - 1) else none

end PolicyLevers.Report
