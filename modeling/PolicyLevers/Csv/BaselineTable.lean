import PolicyLevers.Csv.Records
import PolicyLevers.Decimal.Reading
import PolicyLevers.Projection.Baseline
import PolicyLevers.Text.Quoted

/-!
# Baselines as tables of text

The first record names the columns: `year`, `region`, and one attribute for each column after them.
Every other record holds one region in one year, with as many fields as there are columns.  Fields are
trimmed, and an empty field leaves its attribute out.
-/

namespace PolicyLevers

set_option autoImplicit false

inductive BaselineFault where
  | unreadable
  | missingColumn (name : String)
  /-- A record has another number of fields than there are columns. -/
  | unequalFields
  | badValue (line : Nat) (column value : String)
  deriving DecidableEq, Repr

def BaselineFault.message : BaselineFault → String
  | unreadable => "Invalid baseline CSV"
  | missingColumn name => "Baseline has no " ++ name ++ " column"
  | unequalFields => "Invalid baseline CSV"
  | badValue line column value =>
    "Baseline line " ++ toString line ++ ": " ++ column ++ " value " ++ Text.quoted value ++
      " is not a number"

namespace BaselineTable

def trimmed (record : Csv.Record) : List String :=
  record.fields.map (fun field => String.ofList (Text.trim field))

def readAttributes (line : Nat) (attributes : Attributes) :
    List (String × String) → Except BaselineFault Attributes
  | [] => .ok attributes
  | (column, value) :: rest =>
    if value.isEmpty then readAttributes line attributes rest
    else
      match Decimal.readFloat value.toList with
      | none => .error (.badValue line column value)
      | some number => readAttributes line (attributes.insert column number) rest

def readRecord (columns : List String) (record : Csv.Record) :
    Except BaselineFault BaselineRecord :=
  let fields := trimmed record
  let line := record.lineFeeds + 1
  if fields.length ≠ columns.length then .error .unequalFields
  else
    let yearText := fields.headD ""
    match Decimal.readInt32 yearText.toList with
    | none => .error (.badValue line "year" yearText)
    | some year => do
      let attributes ← readAttributes line ∅ ((columns.zip fields).drop 2)
      pure ⟨year, fields.getD 1 "", attributes⟩

/-- Adds records up to the first fault. -/
def readRecords (columns : List String) (baseline : Baseline) :
    List Csv.Record → Except BaselineFault Baseline
  | [] => .ok baseline
  | record :: rest => do
    let read ← readRecord columns record
    readRecords columns (baseline.insert read) rest

def read (text : String) : Except BaselineFault Baseline :=
  let records := Csv.records text.toList
  let columns := (records.head?.map trimmed).getD []
  if columns.head? ≠ some "year" then .error (.missingColumn "year")
  else if columns[1]? ≠ some "region" then .error (.missingColumn "region")
  else readRecords columns .empty records.tail

end BaselineTable

end PolicyLevers
