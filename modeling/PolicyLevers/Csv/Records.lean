/-!
# Comma-separated records

A text is split into records and records into fields.  Records end at a line feed or a carriage return,
and empty lines between them are skipped.  A field that starts with a quote runs to the next quote that
stands alone, two quotes standing for one; what follows it up to the comma is taken as it is.  Any other
quote is a character like any other.  A byte order mark in front of the text is skipped.
-/

namespace PolicyLevers.Csv

set_option autoImplicit false

/-- A record and the number of line feeds before it, up to the end of the record before it. -/
structure Record where
  lineFeeds : Nat
  fields : List (List Char)
  deriving DecidableEq, Repr

/-- Where a reader stands between two characters. -/
inductive Mode where
  | between
  | fieldStart
  /-- Inside a field without quotes, or behind the closing quote of one. -/
  | bare
  | quoted
  /-- Behind a quote inside a quoted field, which closes it unless another quote follows. -/
  | quoteSeen
  deriving DecidableEq, Repr

/-- What a reader has found so far; the latest comes first in each list. -/
structure Progress where
  mode : Mode
  field : List Char
  fields : List (List Char)
  records : List Record
  lineFeeds : Nat
  /-- The line feeds read when the last record ended. -/
  lineFeedsBefore : Nat
  deriving DecidableEq, Repr

namespace Progress

def start : Progress := ⟨.between, [], [], [], 0, 0⟩

def add (progress : Progress) (mode : Mode) (c : Char) : Progress :=
  { progress with mode := mode, field := c :: progress.field }

def endField (progress : Progress) : Progress :=
  { progress with
    mode := .fieldStart
    field := []
    fields := progress.field.reverse :: progress.fields }

def endRecord (progress : Progress) : Progress :=
  let complete := progress.endField
  { complete with
    mode := .between
    fields := []
    records := ⟨progress.lineFeedsBefore, complete.fields.reverse⟩ :: progress.records
    lineFeedsBefore := progress.lineFeeds }

def isLineEnd (c : Char) : Bool := c = '\n' || c = '\r'

def takeBare (progress : Progress) (c : Char) : Progress :=
  if c = ',' then progress.endField
  else if isLineEnd c then progress.endRecord
  else progress.add .bare c

def takeFirst (progress : Progress) (c : Char) : Progress :=
  if c = '"' then { progress with mode := .quoted } else progress.takeBare c

def take (progress : Progress) (c : Char) : Progress :=
  let counted := if c = '\n' then { progress with lineFeeds := progress.lineFeeds + 1 } else progress
  match progress.mode with
  | .between => if isLineEnd c then counted else counted.takeFirst c
  | .fieldStart => counted.takeFirst c
  | .bare => counted.takeBare c
  | .quoted => if c = '"' then { counted with mode := .quoteSeen } else counted.add .quoted c
  | .quoteSeen => if c = '"' then counted.add .quoted c else counted.takeBare c

def finish (progress : Progress) : List Record :=
  match progress.mode with
  | .between => progress.records.reverse
  | _ => progress.endRecord.records.reverse

end Progress

/-- The text without a byte order mark in front. -/
def dropMark : List Char → List Char
  | '\ufeff' :: rest => rest
  | text => text

def records (text : List Char) : List Record :=
  ((dropMark text).foldl Progress.take .start).finish

end PolicyLevers.Csv
