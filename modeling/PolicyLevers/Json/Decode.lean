import PolicyLevers.SortedMap
import PolicyLevers.Decimal.Reading
import PolicyLevers.Json.Value

/-!
# Values out of JSON documents

How the parts of a document are taken for numbers, texts, lists, maps and records.  A decimal is never
taken for a whole number, and a number beyond the range of doubles is none.
-/

namespace PolicyLevers.Json

set_option autoImplicit false

def string? : Json → Option String
  | .text content => content
  | _ => none

def bool? : Json → Option Bool
  | .bool value => some value
  | _ => none

def array? : Json → Option (List Json)
  | .array items => some items
  | _ => none

def float? : Json → Option Float
  | .number digits => (Decimal.readFloat digits).filter Float.isFinite
  | _ => none

/-- A number written without point and exponent.  A negative zero counts as a decimal. -/
def int? : Json → Option Int
  | .number digits => if digits = ['-', '0'] then none else Decimal.readInt digits
  | _ => none

def int32? (json : Json) : Option Int :=
  json.int?.filter (fun value => -0x80000000 ≤ value && value < 0x80000000)

def uint64? (json : Json) : Option UInt64 :=
  (json.int?.filter (fun value => 0 ≤ value && value < 0x10000000000000000)).map
    (fun value => UInt64.ofNat value.toNat)

def listOf? {α : Type} (item? : Json → Option α) (json : Json) : Option (List α) := do
  (← json.array?).mapM item?

def members? : Json → Option (List (String × Json))
  | .object members => members.mapM (fun (key, value) => key.map (fun key => (key, value)))
  | _ => none

/-- An object as a map; of members with one key the last counts. -/
def mapOf? {α : Type} (value? : Json → Option α) (json : Json) : Option (NameMap α) := do
  let entries ← (← json.members?).mapM (fun (key, value) => (value? value).map (fun value => (key, value)))
  pure (SortedMap.ofList entries)

/-- The values given for the fields of a record, without those that are missing. -/
abbrev Fields := List (String × Json)

/-- The fields of a record with the given names.  It is an object, in which no field occurs twice and
other members are ignored, or an array of the values in the order of the names. -/
def fields? (names : List String) : Json → Option Fields
  | .array items =>
    if items.length ≤ names.length then some (names.zip items) else none
  | json => do
    let fields := (← json.members?).filter (fun (key, _) => names.contains key)
    if (fields.map (·.1)).Nodup then some fields else none

def Fields.get? {α : Type} (fields : Fields) (name : String) (value? : Json → Option α) : Option α :=
  (List.lookup name fields).bind value?

def Fields.getD? {α : Type} (fields : Fields) (name : String) (value? : Json → Option α)
    (default : α) : Option α :=
  match List.lookup name fields with
  | some value => value? value
  | none => some default

end PolicyLevers.Json
