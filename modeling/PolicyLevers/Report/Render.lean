import PolicyLevers.Program.Compile
import PolicyLevers.Report.SourceLines
import PolicyLevers.Text.Width

/-!
# Reports

A report shows the lines of a script that an error is about, with the error underlined and its message
below.  The place of an error is given in bytes and taken for a place in characters, so a script with
other than ASCII characters before the error shows a shifted place; a place behind the end of the script
shows no lines.  An error without a place is reported on one line.
-/

namespace PolicyLevers.Report

set_option autoImplicit false

/-- Tabs reach to the next multiple of this column. -/
def tabWidth : Nat := 4

/-- A character as it is shown and the columns it takes.  Blanks of all kinds are shown as blanks. -/
def cell (c : Char) (column : Nat) : Char × Nat :=
  if c = '\t' then (' ', tabWidth - column % tabWidth)
  else if Text.isBlank c then (' ', 1)
  else (c, Text.columns c)

def showText (shown : List Char) : List Char :=
  (shown.zipIdx).flatMap (fun (c, column) =>
    let (c, width) := cell c column
    if c = ' ' then List.replicate width c else [c])

/-- The columns of the character at an index of a line; behind its end every column counts one. -/
def widthAt (shown : List Char) (index : Nat) : Nat :=
  match shown[index]? with
  | some c => (cell c index).2
  | none => 1

/-- A sign for a character, and how it goes on if the character takes several columns. -/
structure Stroke where
  first : Char
  rest : Char

def Stroke.of (c : Char) : Stroke := ⟨c, c⟩

def drawBelow (shown : List Char) (count : Nat) (stroke : Nat → Stroke) : List Char :=
  (List.range count).flatMap (fun index =>
    match widthAt shown index with
    | 0 => []
    | width + 1 => (stroke index).first :: List.replicate width (stroke index).rest)

/-- Two columns more than what is underlined. -/
def arrowSpace : Nat := 2

structure Page where
  lines : List SourceLine
  start : Nat
  stop : Nat
  message : List Char
  numberWidth : Nat

namespace Page

def margin (page : Page) (bar : Char) : List Char :=
  List.replicate (page.numberWidth + 2) ' ' ++ [bar, ' ']

def numberedMargin (page : Page) (index : Nat) : List Char :=
  let number := Nat.toDigits 10 (index + 1)
  ' ' :: (List.replicate (page.numberWidth - number.length) ' ' ++ (number ++ " │ ".toList))

/-- The last character of the error, or the place of an empty one. -/
def last (page : Page) : Nat := max page.start (page.stop - 1)

def inlineRows (page : Page) (index : Nat) (line : SourceLine) : List (List Char) :=
  let shown := line.shown
  let column := (page.start + page.stop) / 2 - line.offset
  let underlined (index : Nat) : Bool :=
    page.start ≤ line.offset + index && line.offset + index < page.stop
  let arrow := page.stop - line.offset + arrowSpace
  let underline (index : Nat) : Stroke :=
    if index = column then (if underlined index then ⟨'┬', '─'⟩ else ⟨'│', ' '⟩)
    else if underlined index then .of '─'
    else .of ' '
  let pointer (index : Nat) : Stroke :=
    if index = column then ⟨'╰', '─'⟩ else if column < index then .of '─' else .of ' '
  [page.numberedMargin index ++ showText shown,
    page.margin '│' ++ drawBelow shown arrow underline,
    page.margin '│' ++ (drawBelow shown arrow pointer ++ ' ' :: page.message)]

def closingRows (page : Page) (index : Nat) (line : SourceLine) : List (List Char) :=
  let shown := line.shown
  let arrow := line.length + arrowSpace
  [page.numberedMargin index ++ ("├─▶ ".toList ++ showText shown),
    page.margin '│' ++ ("│   ".toList ++ drawBelow shown arrow (fun _ => .of ' ')),
    page.margin '│' ++ ("╰───".toList ++ (drawBelow shown arrow (fun _ => .of '─') ++
      ' ' :: page.message))]

/-- The rows of an error over several lines.  Of the lines between its first and its last one only a
gap is shown; `inGap` tells that this has been done. -/
def blockRows (page : Page) (inGap : Bool) : List (SourceLine × Nat) → List (List Char)
  | [] => []
  | (line, index) :: rest =>
    if line.contains page.start then
      (page.numberedMargin index ++ ("╭─▶ ".toList ++ showText line.shown)) :: page.blockRows false rest
    else if line.contains page.last then
      page.closingRows index line ++ page.blockRows false rest
    else if inGap then page.blockRows true rest
    else if page.start ≤ line.offset && line.offset < page.stop then
      (page.margin '┆' ++ "┆   ".toList) :: page.blockRows true rest
    else page.margin '│' :: page.blockRows true rest

/-- What stands between the margin and a help text: nothing for an error within one line; otherwise the
space of the arrows, with a bar if the error starts right behind the first line. -/
def helpIndent (page : Page) (isBlock : Bool) : List Char :=
  if !isBlock then []
  else if (page.lines.head?.map SourceLine.stop) = some page.start then "│   ".toList
  else "    ".toList

def helpRows (page : Page) (isBlock : Bool) (help : String) : List (List Char) :=
  let indent := page.margin '│' ++ page.helpIndent isBlock
  [indent, indent ++ ("Help: " ++ help).toList]

def rows (page : Page) (first final : Nat) (help : Option String) : List (List Char) :=
  let column := page.start - ((page.lines[first]?.map SourceLine.offset).getD 0)
  let place := "╭─[ <script>:" ++ toString (first + 1) ++ ":" ++ toString (column + 1) ++ " ]"
  let indent := List.replicate (page.numberWidth + 2) ' '
  let shown := (page.lines.zipIdx.drop first).take (final + 1 - first)
  let body :=
    if first = final then
      shown.flatMap (fun (line, index) =>
        if line.offset ≤ page.start && page.stop ≤ line.stop then page.inlineRows index line
        else [page.margin '│'])
    else page.blockRows false shown
  let helpRows := (help.map (page.helpRows (first ≠ final))).getD []
  [indent ++ place.toList, indent ++ ['│']] ++ body ++ helpRows ++
    [List.replicate (page.numberWidth + 2) '─' ++ ['╯']]

end Page

/-- The rows below the message: none if the place lies behind the end of the script. -/
def placeRows (source : List Char) (span : Script.Span) (message : String) (help : Option String) :
    List (List Char) :=
  let lines := sourceLines source
  let stop := min span.stop (Text.bytes source)
  let start := min span.start stop
  match lineIndex? lines start, lineIndex? lines (if start < stop then stop - 1 else start) with
  | some first, some final =>
    let page : Page := ⟨lines, start, stop, message.toList, (Nat.toDigits 10 (final + 1)).length⟩
    page.rows first final help
  | _, _ => []

def render (source : String) (diagnostic : Diagnostic) : String :=
  match diagnostic.span with
  | none => "error[" ++ diagnostic.code ++ "]: " ++ diagnostic.message ++ "\n"
  | some span =>
    let title := "[" ++ diagnostic.code ++ "] Error: " ++ diagnostic.message
    let rows := title.toList ::
      placeRows source.toList span diagnostic.message diagnostic.help
    String.ofList (rows.flatMap (fun row => row ++ ['\n']))

end PolicyLevers.Report
