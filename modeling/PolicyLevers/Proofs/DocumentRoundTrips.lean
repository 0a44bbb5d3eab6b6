import PolicyLevers.Document.Configuration
import PolicyLevers.Proofs.DocumentFormats

/-!
# Values are read back from their documents

States, baseline records, levers and seeds are kept by their formats.  So each of them that can be read
is written as a text that is read as it, and writing what was read changes nothing.
-/

namespace PolicyLevers

set_option autoImplicit false

/-! ## Ledger entries and inspected values -/

open DocumentFormat

namespace LedgerEntry

def format : DocumentFormat LedgerEntry := ⟨toJson, ofJson?⟩

def Finite : LedgerEntry → Prop
  | number value => value.isFinite = true
  | region attributes => EachValue (fun value => value.isFinite = true) attributes

instance : DecidablePred Finite
  | number value => inferInstanceAs (Decidable (value.isFinite = true))
  | region attributes =>
    inferInstanceAs (Decidable (EachValue (fun value => value.isFinite = true) attributes))

theorem format_keeps : format.Keeps Finite := by
  constructor
  · rintro (value | attributes) finite
    · exact number_keeps.sound value finite
    · exact (map_keeps number_keeps).sound attributes finite
  · rintro (value | attributes) finite
    · -- a finite number is no object, so it is not taken for a region
      have digits : Json.float value = .number (Decimal.document.render value).toList := if_pos finite
      have back := number_keeps.back value finite
      change ofJson? (Json.float value) = some (.number value)
      change (Json.float value).float? = some value at back
      rw [digits] at back ⊢
      exact congrArg (Option.map LedgerEntry.number) back
    · exact congrArg (Option.map LedgerEntry.region) ((map_keeps number_keeps).back attributes finite)
  · intro json entry read
    change ofJson? json = some entry at read
    unfold ofJson? at read
    split at read
    · obtain ⟨attributes, found, rfl⟩ := Option.map_eq_some_iff.mp read
      exact (map_keeps number_keeps).reads _ attributes found
    · obtain ⟨value, found, rfl⟩ := Option.map_eq_some_iff.mp read
      exact number_keeps.reads _ value found

end LedgerEntry

namespace InspectRecord

def format : DocumentFormat InspectRecord := ⟨toJson, ofJson?⟩

def Finite (inspected : InspectRecord) : Prop := inspected.value.isFinite = true

instance : DecidablePred Finite := fun inspected =>
  inferInstanceAs (Decidable (inspected.value.isFinite = true))

theorem format_keeps : format.Keeps Finite := by
  constructor
  · intro inspected finite
    refine record_sound ?_
    simp only [List.forall_mem_cons]
    exact ⟨string_keeps.sound _ trivial, number_keeps.sound _ finite, nofun⟩
  · intro inspected finite
    have back := number_keeps.back inspected.value finite
    change ofJson? (toJson inspected) = some inspected
    have fields : (toJson inspected).fields? ["name", "value"] =
        some [("name", .string inspected.name), ("value", .float inspected.value)] :=
      fields_of_record rfl (by decide)
    change (Json.float inspected.value).float? = some inspected.value at back
    unfold ofJson?
    rw [fields]
    simp [back]
    rfl
  · intro json inspected read
    obtain ⟨fields, -, rest⟩ := Option.bind_eq_some_iff.mp read
    obtain ⟨name, -, rest⟩ := Option.bind_eq_some_iff.mp rest
    obtain ⟨value, found, same⟩ := Option.bind_eq_some_iff.mp rest
    cases same
    exact field_reads number_keeps found

end InspectRecord

/-! ## States -/

namespace State

def format : DocumentFormat State := ⟨toJson, ofJson?⟩

structure Finite (state : State) : Prop where
  locals : EachValue (fun value => value.isFinite = true) state.locals
  ledger : EachValue LedgerEntry.Finite state.ledger
  inputs : EachValue (fun value => value.isFinite = true) state.inputs
  context : EachValue (fun value => value.isFinite = true) state.context
  inspected : ∀ inspected ∈ state.inspected, inspected.Finite

theorem format_keeps : format.Keeps Finite := by
  have numbers := map_keeps number_keeps
  have entries := map_keeps LedgerEntry.format_keeps
  have records := list_keeps InspectRecord.format_keeps
  constructor
  · intro state finite
    refine record_sound ?_
    simp only [List.forall_mem_cons]
    exact ⟨numbers.sound _ finite.locals, entries.sound _ finite.ledger, numbers.sound _ finite.inputs,
      numbers.sound _ finite.context, records.sound _ finite.inspected, nofun⟩
  · intro state finite
    have fields : (toJson state).fields? ["local", "out", "in", "meta", "inspect"] = some _ :=
      fields_of_record rfl (by decide)
    have locals : Json.mapOf? Json.float? (NameMap.toJson Json.float state.locals) =
        some state.locals := numbers.back _ finite.locals
    have ledger : Json.mapOf? LedgerEntry.ofJson? (NameMap.toJson LedgerEntry.toJson state.ledger) =
        some state.ledger := entries.back _ finite.ledger
    have inputs : Json.mapOf? Json.float? (NameMap.toJson Json.float state.inputs) =
        some state.inputs := numbers.back _ finite.inputs
    have context : Json.mapOf? Json.float? (NameMap.toJson Json.float state.context) =
        some state.context := numbers.back _ finite.context
    have inspected : Json.listOf? InspectRecord.ofJson?
        (.array (state.inspected.map InspectRecord.toJson)) = some state.inspected :=
      records.back _ finite.inspected
    change ofJson? (toJson state) = some state
    unfold ofJson?
    rw [fields]
    simp [locals, ledger, inputs, context, inspected]
  · intro json state read
    obtain ⟨fields, -, rest⟩ := Option.bind_eq_some_iff.mp read
    obtain ⟨locals, first, rest⟩ := Option.bind_eq_some_iff.mp rest
    obtain ⟨ledger, second, rest⟩ := Option.bind_eq_some_iff.mp rest
    obtain ⟨inputs, third, rest⟩ := Option.bind_eq_some_iff.mp rest
    obtain ⟨context, fourth, rest⟩ := Option.bind_eq_some_iff.mp rest
    obtain ⟨inspected, fifth, same⟩ := Option.bind_eq_some_iff.mp rest
    cases same
    exact ⟨field_reads numbers first, field_reads entries second, field_reads numbers third,
      field_reads numbers fourth, field_reads records fifth⟩

end State

/-! ## Levers -/

namespace LeverDefinition

def format : DocumentFormat LeverDefinition := ⟨toJson, ofJson?⟩

/-- The priority has 32 bits, and the default is finite. -/
def Storable (definition : LeverDefinition) : Prop :=
  IsInt32 definition.priority ∧ definition.defaultValue.isFinite = true

theorem format_keeps : format.Keeps Storable := by
  constructor
  · intro definition storable
    refine record_sound ?_
    simp only [List.forall_mem_cons]
    exact ⟨string_keeps.sound _ trivial, int_sound _, string_keeps.sound _ trivial,
      string_keeps.sound _ trivial, number_keeps.sound _ storable.2, nofun⟩
  · intro definition storable
    have fields : (toJson definition).fields?
        ["variable", "priority", "units", "script", "defaultValue"] = some _ :=
      fields_of_record rfl (by decide)
    have priority : (Json.int definition.priority).int32? = some definition.priority :=
      int32_keeps.back _ storable.1
    have defaultValue : (Json.float definition.defaultValue).float? = some definition.defaultValue :=
      number_keeps.back _ storable.2
    change ofJson? (toJson definition) = some definition
    unfold ofJson?
    rw [fields]
    simp [priority, defaultValue]
    rfl
  · intro json definition read
    obtain ⟨fields, -, rest⟩ := Option.bind_eq_some_iff.mp read
    obtain ⟨name, -, rest⟩ := Option.bind_eq_some_iff.mp rest
    obtain ⟨priority, second, rest⟩ := Option.bind_eq_some_iff.mp rest
    obtain ⟨units, -, rest⟩ := Option.bind_eq_some_iff.mp rest
    obtain ⟨script, -, rest⟩ := Option.bind_eq_some_iff.mp rest
    obtain ⟨defaultValue, fifth, same⟩ := Option.bind_eq_some_iff.mp rest
    cases same
    exact ⟨default_field_reads int32_keeps (by decide) second,
      default_field_reads number_keeps (by decide +kernel) fifth⟩

end LeverDefinition

/-! ## Baseline records -/

namespace BaselineRecord

def format : DocumentFormat BaselineRecord := ⟨toJson, ofJson?⟩

/-- The year has 32 bits, the attributes are finite, and none is named like another member. -/
structure Storable (entry : BaselineRecord) : Prop where
  year : IsInt32 entry.year
  attributes : EachValue (fun value => value.isFinite = true) entry.attributes
  names : ∀ held ∈ entry.attributes.entries, ownMembers.contains held.1 = false

def own (entry : BaselineRecord) : List (String × Json) :=
  [("year", .int entry.year), ("region", .string entry.region)]

def others (entry : BaselineRecord) : List (String × Json) :=
  entry.attributes.entries.map (fun (name, value) => (name, number.toJson value))

theorem others_apart {entry : BaselineRecord} (storable : entry.Storable) {member : String × Json}
    (inside : member ∈ entry.others) : ownMembers.contains member.1 = false := by
  obtain ⟨held, listed, rfl⟩ := List.mem_map.mp inside
  exact storable.names held listed

theorem split_members {entry : BaselineRecord} (storable : entry.Storable) :
    (entry.own ++ entry.others).filter (fun (key, _) => ownMembers.contains key) = entry.own ∧
      (entry.own ++ entry.others).filter (fun (key, _) => !ownMembers.contains key) = entry.others := by
  have dropped : entry.others.filter (fun (key, _) => ownMembers.contains key) = [] := by
    refine List.filter_eq_nil_iff.mpr ?_
    rintro ⟨key, json⟩ inside
    dsimp only
    rw [others_apart storable inside]
    decide
  have kept : entry.others.filter (fun (key, _) => !ownMembers.contains key) = entry.others := by
    refine List.filter_eq_self.mpr ?_
    rintro ⟨key, json⟩ inside
    dsimp only
    rw [others_apart storable inside]
    rfl
  rw [List.filter_append, List.filter_append, dropped, kept]
  exact ⟨rfl, rfl⟩

theorem format_sound {entry : BaselineRecord} (storable : entry.Storable) : (toJson entry).Sound := by
  refine record_sound ?_
  intro member inside
  rcases List.mem_append.mp inside with own | other
  · rcases List.mem_pair.mp own with rfl | rfl
    · exact int_sound entry.year
    · exact string_keeps.sound entry.region trivial
  · obtain ⟨held, listed, rfl⟩ := List.mem_map.mp other
    exact number_keeps.sound held.2 (storable.attributes held listed)

theorem format_back {entry : BaselineRecord} (storable : entry.Storable) :
    ofJson? (toJson entry) = some entry := by
  obtain ⟨kept, left⟩ := split_members storable
  have distinct : (entry.own.map Prod.fst).Nodup := (by decide : ownMembers.Nodup)
  have members : (toJson entry).members? = some (entry.own ++ entry.others) := members_of_record _
  have fields : (toJson entry).fields? ownMembers = some entry.own := fields_of_members kept distinct
  have year : (Json.int entry.year).int32? = some entry.year := int32_keeps.back _ storable.year
  have attributes : entry.others.mapM (fun (key, value) =>
      value.float?.map (fun value => (key, value))) = some entry.attributes.entries :=
    entries_back number_keeps storable.attributes
  unfold ofJson?
  rw [members, Option.bind_eq_bind, Option.bind_some, fields, Option.bind_eq_bind, Option.bind_some]
  dsimp only at left attributes ⊢
  rw [left, attributes, Option.bind_some, SortedMap.of_list_entries]
  simp [own, year]
  rfl

theorem format_keeps : format.Keeps Storable := by
  refine ⟨fun _ => format_sound, fun _ => format_back, ?_⟩
  intro json entry read
  obtain ⟨members, -, rest⟩ := Option.bind_eq_some_iff.mp read
  obtain ⟨fields, -, rest⟩ := Option.bind_eq_some_iff.mp rest
  obtain ⟨attributes, all, rest⟩ := Option.bind_eq_some_iff.mp rest
  obtain ⟨year, first, rest⟩ := Option.bind_eq_some_iff.mp rest
  obtain ⟨region, -, same⟩ := Option.bind_eq_some_iff.mp rest
  cases same
  refine ⟨field_reads int32_keeps first, entries_read number_keeps all, ?_⟩
  intro held listed
  obtain ⟨origin, inside, found⟩ := all_read all (SortedMap.mem_of_list listed)
  obtain ⟨value, -, rfl⟩ := Option.map_eq_some_iff.mp found
  simpa using (List.mem_filter.mp inside).2

end BaselineRecord

/-! ## Seeds -/

namespace Randomness

def format : DocumentFormat Randomness := ⟨toJson, ofJson?⟩

theorem format_keeps : format.Keeps (fun _ => True) := by
  constructor
  · rintro (_ | seed) _
    · exact .text "Entropy"
    · refine record_sound ?_
      simp only [List.forall_mem_cons]
      exact ⟨int_sound _, nofun⟩
  · rintro (_ | seed) _
    · rfl
    · exact congrArg (Option.map seeded) (uint64_keeps.back seed trivial)
  · exact fun _ _ _ => trivial

end Randomness

/-- A state of finite numbers is read back from its text, and what is read as a state, a baseline record,
a lever or a seed is kept when it is written and read again. -/
theorem values_are_read_back :
    (∀ state : State, state.Finite → State.format.read? (State.format.text state) = some state) ∧
      State.format.Stable ∧ BaselineRecord.format.Stable ∧ LeverDefinition.format.Stable ∧
      Randomness.format.Stable :=
  ⟨fun _ => State.format_keeps.read_text, State.format_keeps.stable, BaselineRecord.format_keeps.stable,
    LeverDefinition.format_keeps.stable, Randomness.format_keeps.stable⟩

/-- A state with a negative zero, and with a number next to a region in its ledger. -/
def sampleState : State where
  locals := .ofList [("rate", 0.1), ("zero", -0.0)]
  ledger := .ofList [("note", .number 1e-7), ("north\n\"1\"", .region (.ofList [("waste", 1e23)]))]
  inspected := [⟨"out.note * 2", 2e-7⟩]

def sampleRecordText : String :=
  "\x7b\"waste\": 1.5, \"region\": \"north\", \"year\": 2030, \"waste\": 2\x7d"

def sampleRecord : BaselineRecord := ⟨2030, "north", .ofList [("waste", 2.0)]⟩

/-- A lever without default, given as an array. -/
def sampleLeverText : String := "[\"tax\", 3, \"\\u0025\", \"out.note = 1;\"]"

def sampleLever : LeverDefinition :=
  { name := "tax", priority := 3, units := "%", script := "out.note = 1;" }

theorem sample_state_finite : sampleState.Finite := by
  constructor <;> decide +kernel

theorem sample_values_are_read_back :
    (sampleState.Finite ∧ State.format.read? (State.format.text sampleState) = some sampleState) ∧
      (BaselineRecord.format.read? sampleRecordText = some sampleRecord ∧
        BaselineRecord.format.read? (BaselineRecord.format.text sampleRecord) = some sampleRecord) ∧
      (LeverDefinition.format.read? sampleLeverText = some sampleLever ∧
        LeverDefinition.format.read? (LeverDefinition.format.text sampleLever) = some sampleLever) ∧
      (Randomness.format.read? "\x7b \"Seeded\" : 7 \x7d" = some (.seeded 7) ∧
        Randomness.format.read? (Randomness.format.text (.seeded 7)) = some (.seeded 7)) := by
  obtain ⟨states, -, records, levers, seeds⟩ := values_are_read_back
  have record : BaselineRecord.format.read? sampleRecordText = some sampleRecord := by decide +kernel
  have lever : LeverDefinition.format.read? sampleLeverText = some sampleLever := by decide +kernel
  have seed : Randomness.format.read? "\x7b \"Seeded\" : 7 \x7d" = some (.seeded 7) := by
    decide +kernel
  exact ⟨⟨sample_state_finite, states sampleState sample_state_finite⟩,
    ⟨record, (records _ _ record).1⟩, ⟨lever, (levers _ _ lever).1⟩, ⟨seed, (seeds _ _ seed).1⟩⟩

end PolicyLevers
