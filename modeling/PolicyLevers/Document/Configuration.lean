import PolicyLevers.Json.Decode
import PolicyLevers.Json.Writer
import PolicyLevers.Lever.Registry
import PolicyLevers.Projection.Baseline
import PolicyLevers.Document.State

/-!
# Levers, baseline records and seeds as documents

A lever may leave out all members but its name and script.  A baseline record keeps its attributes
beside its year and region, so every further member is an attribute.
-/

namespace PolicyLevers

set_option autoImplicit false

namespace LeverDefinition

def toJson (definition : LeverDefinition) : Json :=
  .record [
    ("variable", .string definition.name),
    ("priority", .int definition.priority),
    ("units", .string definition.units),
    ("script", .string definition.script),
    ("defaultValue", .float definition.defaultValue)]

def ofJson? (json : Json) : Option LeverDefinition := do
  let fields ← json.fields? ["variable", "priority", "units", "script", "defaultValue"]
  pure {
    name := ← fields.get? "variable" Json.string?
    priority := ← fields.getD? "priority" Json.int32? 0
    units := ← fields.getD? "units" Json.string? ""
    script := ← fields.get? "script" Json.string?
    defaultValue := ← fields.getD? "defaultValue" Json.float? 0.0 }

end LeverDefinition

namespace BaselineRecord

def ownMembers : List String := ["year", "region"]

def toJson (entry : BaselineRecord) : Json :=
  .record ([("year", .int entry.year), ("region", .string entry.region)] ++
    entry.attributes.entries.map (fun (name, value) => (name, .float value)))

def ofJson? (json : Json) : Option BaselineRecord := do
  let members ← json.members?
  let fields ← json.fields? ownMembers
  let others := members.filter (fun (key, _) => !ownMembers.contains key)
  let attributes ← others.mapM (fun (key, value) => value.float?.map (fun value => (key, value)))
  pure ⟨← fields.get? "year" Json.int32?, ← fields.get? "region" Json.string?, .ofList attributes⟩

end BaselineRecord

inductive Randomness where
  /-- A seed that is new for every run. -/
  | entropy
  | seeded (seed : UInt64)
  deriving DecidableEq, Repr

namespace Randomness

def toJson : Randomness → Json
  | entropy => .string "Entropy"
  | seeded seed => .record [("Seeded", .int seed.toNat)]

/-- The first alternative may be written as an object too. -/
def ofJson? : Json → Option Randomness
  | .text (some "Entropy") => some .entropy
  | .object [(some "Entropy", .null)] => some .entropy
  | .object [(some "Seeded", seed)] => seed.uint64?.map .seeded
  | _ => none

end Randomness

end PolicyLevers
