import Mathlib.Data.List.Nodup
import PolicyLevers.Lever.Registry
import PolicyLevers.Proofs.MapLaws

/-!
# Slots of a registry

A registry keeps its levers in a list and the place of every name in a map beside it.  The two agree: each name
leads to the slot in which the lever of that name stands, and no lever stands where no name leads.  Every change of
a registry keeps that, so a lever that is found by its slot is the one that has the name.
-/

namespace PolicyLevers.LeverRegistry

set_option autoImplicit false

def names (registry : LeverRegistry) : List String :=
  registry.levers.map (fun lever => lever.definition.name)

/-- A name leads to a slot exactly if its lever stands there. -/
def Indexed (registry : LeverRegistry) : Prop :=
  ∀ name slot, registry.slots.get? name = some slot ↔ registry.names[slot]? = some name

def changed (registry : LeverRegistry) (slot : Nat) (change : Lever → Lever) : LeverRegistry :=
  { registry with levers := registry.levers.modify slot change }

def extended (registry : LeverRegistry) (lever : Lever) : LeverRegistry :=
  { registry with
    levers := registry.levers ++ [lever]
    slots := registry.slots.insert lever.definition.name registry.levers.length }

theorem names_slot {registry : LeverRegistry} {slot : Nat} {name : String} :
    registry.names[slot]? = some name ↔
      ∃ lever, registry.levers[slot]? = some lever ∧ lever.definition.name = name := by
  rw [names, List.getElem?_map, Option.map_eq_some_iff]

theorem empty_indexed (limits : ScriptLimits) : (empty limits).Indexed := by
  intro name slot
  simp [empty, names]

section Lookup

variable {registry : LeverRegistry} (indexed : registry.Indexed)

include indexed

theorem Indexed.distinct : registry.names.Nodup := by
  rw [List.nodup_iff_getElem?_ne_getElem?]
  intro first second less bound same
  have here : registry.names[second]? = some registry.names[second] := List.getElem?_eq_getElem bound
  have one := (indexed _ _).mpr (same.trans here)
  have other := (indexed _ _).mpr here
  rw [one, Option.some.injEq] at other
  omega

theorem Indexed.find_iff {name : String} {lever : Lever} :
    registry.find? name = some lever ↔ lever ∈ registry.levers ∧ lever.definition.name = name := by
  rw [find?, Option.bind_eq_some_iff]
  constructor
  · rintro ⟨slot, leads, stands⟩
    obtain ⟨other, same, named⟩ := names_slot.mp ((indexed name slot).mp leads)
    obtain rfl := Option.some.inj (stands.symm.trans same)
    exact ⟨List.mem_of_getElem? stands, named⟩
  · rintro ⟨member, named⟩
    obtain ⟨slot, stands⟩ := List.getElem?_of_mem member
    exact ⟨slot, (indexed name slot).mpr (names_slot.mpr ⟨lever, stands, named⟩), stands⟩

/-- Looking a name up in the map finds what a search through the levers does. -/
theorem Indexed.find_eq (name : String) :
    registry.find? name = registry.levers.find? (fun lever => lever.definition.name = name) := by
  apply Option.ext
  intro lever
  rw [indexed.find_iff]
  constructor
  · rintro ⟨member, named⟩
    cases found : registry.levers.find? (fun lever => lever.definition.name = name) with
    | none =>
        have missing := List.find?_eq_none.mp found lever member
        simp [named] at missing
    | some other =>
        have same : other.definition.name = name := by simpa using List.find?_some found
        exact congrArg some (List.inj_on_of_nodup_map indexed.distinct (List.mem_of_find?_eq_some found)
          member (same.trans named.symm))
  · intro found
    exact ⟨List.mem_of_find?_eq_some found, by simpa using List.find?_some found⟩

theorem Indexed.mem_names_iff {name : String} :
    name ∈ registry.names ↔ ∃ lever, registry.find? name = some lever := by
  simp only [indexed.find_iff, names, List.mem_map]

theorem Indexed.slot_iff {name : String} :
    (∃ slot, registry.slots.get? name = some slot) ↔ name ∈ registry.names := by
  simp only [indexed name, ← List.mem_iff_getElem?]

theorem Indexed.missing_slot {name : String} (missing : registry.find? name = none) :
    registry.slots.get? name = none := by
  rw [Option.eq_none_iff_forall_ne_some]
  intro slot leads
  obtain ⟨lever, found⟩ := indexed.mem_names_iff.mp (indexed.slot_iff.mp ⟨slot, leads⟩)
  rw [missing] at found
  cases found

end Lookup

/-! ## A lever in its slot -/

section Changed

variable {registry : LeverRegistry} {slot : Nat} {name : String} {change : Lever → Lever}

theorem changed_names (keeps : ∀ lever, registry.levers[slot]? = some lever →
    (change lever).definition.name = lever.definition.name) :
    (registry.changed slot change).names = registry.names := by
  apply List.ext_getElem?
  intro place
  simp only [names, changed, List.getElem?_map, List.getElem?_modify]
  cases stands : registry.levers[place]? with
  | none => rfl
  | some lever =>
      by_cases here : slot = place
      · subst here
        simp [keeps lever stands]
      · simp [here]

theorem changed_find (indexed : registry.Indexed) (leads : registry.slots.get? name = some slot)
    (other : String) :
    (registry.changed slot change).find? other =
      if other = name then (registry.find? name).map change else registry.find? other := by
  by_cases same : other = name
  · subst same
    simp [find?, changed, leads]
  · rw [if_neg same]
    cases elsewhere : registry.slots.get? other with
    | none => simp [find?, changed, elsewhere]
    | some place =>
        -- two names in one slot would be one name
        have apart : slot ≠ place := by
          rintro rfl
          have one := (indexed name slot).mp leads
          rw [(indexed other slot).mp elsewhere] at one
          exact same (Option.some.inj one)
        simp [find?, changed, elsewhere, apart]

theorem Indexed.changed (indexed : registry.Indexed)
    (keeps : ∀ lever, registry.levers[slot]? = some lever →
      (change lever).definition.name = lever.definition.name) :
    (registry.changed slot change).Indexed := by
  intro name place
  rw [changed_names keeps]
  exact indexed name place

end Changed

/-! ## A lever in a new slot -/

section Extended

variable {registry : LeverRegistry} {lever : Lever}

theorem extended_names : (registry.extended lever).names = registry.names ++ [lever.definition.name] := by
  simp [extended, names]

variable (indexed : registry.Indexed) (fresh : registry.slots.get? lever.definition.name = none)

include indexed

theorem extended_find (other : String) :
    (registry.extended lever).find? other =
      if other = lever.definition.name then some lever else registry.find? other := by
  by_cases same : other = lever.definition.name
  · simp [find?, extended, same]
  · rw [if_neg same, find?, find?]
    simp only [extended, SortedMap.get_insert_other _ same]
    cases leads : registry.slots.get? other with
    | none => rfl
    | some slot =>
        obtain ⟨held, stands, _⟩ := names_slot.mp ((indexed other slot).mp leads)
        obtain ⟨inside, _⟩ := List.getElem?_eq_some_iff.mp stands
        rw [Option.bind_some, Option.bind_some, List.getElem?_append_left inside]

include fresh

theorem Indexed.extended : (registry.extended lever).Indexed := by
  have unnamed : lever.definition.name ∉ registry.names := by
    rw [← indexed.slot_iff, fresh]
    simp
  intro name slot
  rw [extended_names]
  by_cases same : name = lever.definition.name
  · subst same
    have count : registry.names.length = registry.levers.length := List.length_map _
    simp only [LeverRegistry.extended, SortedMap.get_insert_same, List.getElem?_append, Option.some.injEq]
    -- a slot among the old ones, where the name does not occur, or the new one behind them
    split
    next inside =>
        refine ⟨fun place => by omega, fun stands => absurd (List.mem_of_getElem? stands) unnamed⟩
    next outside =>
        rw [List.getElem?_singleton]
        split
        · simp
          omega
        · simp
          omega
  · simp only [LeverRegistry.extended, SortedMap.get_insert_other _ same, List.getElem?_append]
    rw [indexed name slot]
    split
    next => rfl
    next outside =>
        rw [List.getElem?_eq_none (Nat.le_of_not_lt outside), List.getElem?_singleton]
        split
        · simpa using Ne.symm same
        · simp

end Extended

end PolicyLevers.LeverRegistry
