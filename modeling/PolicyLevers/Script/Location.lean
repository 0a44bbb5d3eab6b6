import PolicyLevers.Script.Token

/-!
# Places in a script

Inside the grammar a place is named by the number of tokens that still lie ahead of it.  Outside it is
a byte offset into the UTF-8 text, or a line and a column.  An `Extent` is a stretch of tokens, a
`Span` the bytes it covers.
-/

namespace PolicyLevers.Script

set_option autoImplicit false

structure Span where
  start : Nat
  stop : Nat
  deriving DecidableEq, Repr

/-- A stretch of tokens: how many lie ahead of its start and of its end.  A spaced extent also covers
the blanks and comments behind its last token. -/
structure Extent where
  ahead : Nat
  left : Nat
  spaced : Bool
  deriving DecidableEq, Repr

/-- The byte offsets at which the tokens of a scan start and stop.  The text's own start counts as a
stop and its end as a start. -/
structure Offsets where
  starts : List Nat
  stops : List Nat
  deriving DecidableEq, Repr

def tokenOffsets (offset : Nat) : List Piece → List Nat × List Nat × Nat
  | [] => ([], [], offset)
  | piece :: rest =>
    let start := offset + Text.bytes piece.leading
    let stop := start + Text.bytes piece.token.text
    let (starts, stops, finish) := tokenOffsets stop rest
    (start :: starts, stop :: stops, finish)

def Offsets.ofScan (scan : Scan) : Offsets :=
  let (starts, stops, finish) := tokenOffsets 0 scan.pieces
  ⟨starts ++ [finish + Text.bytes scan.trailing], 0 :: stops⟩

namespace Offsets

/-- The offset of the first token when `ahead` of them lie ahead; the end of the text for none. -/
def startAt (offsets : Offsets) (ahead : Nat) : Nat :=
  offsets.starts.getD (offsets.starts.length - (ahead + 1)) 0

def stopAt (offsets : Offsets) (ahead : Nat) : Nat :=
  offsets.stops.getD (offsets.stops.length - (ahead + 1)) 0

def span (offsets : Offsets) (extent : Extent) : Span :=
  ⟨offsets.startAt extent.ahead,
    if extent.spaced then offsets.startAt extent.left else offsets.stopAt extent.left⟩

end Offsets

/-- A line and a column, both counted from one. -/
structure LineColumn where
  line : Nat
  column : Nat
  deriving DecidableEq, Repr

def advance (place : LineColumn) : List Char → Nat → LineColumn
  | [], _ => place
  | c :: rest, offset =>
    if offset = 0 then place
    else
      let next := if c = '\n' then ⟨place.line + 1, 1⟩ else ⟨place.line, place.column + 1⟩
      advance next rest (offset - c.utf8Size)

/-- The line and column of a byte offset.  A line ends with a line feed; columns count characters. -/
def lineColumn (text : List Char) (offset : Nat) : LineColumn := advance ⟨1, 1⟩ text offset

end PolicyLevers.Script
