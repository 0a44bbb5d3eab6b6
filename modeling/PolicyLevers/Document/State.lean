import PolicyLevers.Json.Decode
import PolicyLevers.Json.Writer
import PolicyLevers.Ledger.State
import PolicyLevers.Projection.Series

/-!
# States as documents

The document of a state has one member for each part of it, and in the ledger a number stands for a
number and an object for a region.  A projection is an object of states by year.
-/

namespace PolicyLevers

set_option autoImplicit false

def NameMap.toJson {α : Type} (encode : α → Json) (names : NameMap α) : Json :=
  .record (names.entries.map (fun (name, value) => (name, encode value)))

namespace LedgerEntry

def toJson : LedgerEntry → Json
  | .number value => .float value
  | .region attributes => NameMap.toJson Json.float attributes

def ofJson? (json : Json) : Option LedgerEntry :=
  match json with
  | .object _ => (json.mapOf? Json.float?).map .region
  | _ => json.float?.map .number

end LedgerEntry

namespace InspectRecord

def toJson (inspected : InspectRecord) : Json :=
  .record [("name", .string inspected.name), ("value", .float inspected.value)]

def ofJson? (json : Json) : Option InspectRecord := do
  let fields ← json.fields? ["name", "value"]
  pure ⟨← fields.get? "name" Json.string?, ← fields.get? "value" Json.float?⟩

end InspectRecord

namespace State

def toJson (state : State) : Json :=
  .record [
    ("local", NameMap.toJson Json.float state.locals),
    ("out", NameMap.toJson LedgerEntry.toJson state.ledger),
    ("in", NameMap.toJson Json.float state.inputs),
    ("meta", NameMap.toJson Json.float state.context),
    ("inspect", .array (state.inspected.map InspectRecord.toJson))]

def ofJson? (json : Json) : Option State := do
  let fields ← json.fields? ["local", "out", "in", "meta", "inspect"]
  pure {
    locals := ← fields.get? "local" (Json.mapOf? Json.float?)
    ledger := ← fields.get? "out" (Json.mapOf? LedgerEntry.ofJson?)
    inputs := ← fields.get? "in" (Json.mapOf? Json.float?)
    context := ← fields.get? "meta" (Json.mapOf? Json.float?)
    inspected := ← fields.get? "inspect" (Json.listOf? InspectRecord.ofJson?) }

end State

def Projection.toJson (projection : Projection) : Json :=
  .record (projection.entries.map (fun (year, state) => (toString year, state.toJson)))

end PolicyLevers
