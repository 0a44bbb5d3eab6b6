import Mathlib.Data.List.Induction
import PolicyLevers.Proofs.RegistrySlots

/-!
# Registries after any history

What a registry holds is told by the calls that led to it.  A lever is found in the order of first
registrations; its script, value and flag are the ones set last since it was registered last.  The order in
which levers are applied follows from that, and it forgets in which order levers of different priorities
were registered.
-/

namespace PolicyLevers

set_option autoImplicit false

inductive RegistryCall where
  | register (definition : LeverDefinition)
  | updateScript (name script : String)
  | setValue (name : String) (value : Float)
  | setEnabled (name : String) (enabled : Bool)

namespace RegistryCall

def registered? : RegistryCall → Option String
  | register definition => some definition.name
  | _ => none

def required? : RegistryCall → Option String
  | register _ => none
  | updateScript name _ => some name
  | setValue name _ => some name
  | setEnabled name _ => some name

def script? (name : String) : RegistryCall → Option String
  | updateScript other script => if other = name then some script else none
  | _ => none

def value? (name : String) : RegistryCall → Option Float
  | setValue other value => if other = name then some value else none
  | _ => none

def enabled? (name : String) : RegistryCall → Option Bool
  | setEnabled other enabled => if other = name then some enabled else none
  | _ => none

/-- What becomes of the lever that a call requires. -/
def change (limits : ScriptLimits) : RegistryCall → Lever → Lever
  | register _, lever => lever
  | updateScript _ script, lever => lever.withScript limits script
  | setValue _ value, lever => { lever with value := value }
  | setEnabled _ enabled, lever => { lever with enabled := enabled }

theorem change_name (limits : ScriptLimits) (call : RegistryCall) (lever : Lever) :
    (call.change limits lever).definition.name = lever.definition.name := by
  cases call with
  | updateScript name script =>
      by_cases same : lever.definition.script = script <;> simp [change, Lever.withScript, same]
  | _ => rfl

theorem required_unregistered {call : RegistryCall} {name : String}
    (required : call.required? = some name) : call.registered? = none := by
  cases call with
  | register definition => cases required
  | _ => rfl

theorem settings_none {call : RegistryCall} {name : String} (other : call.required? ≠ some name) :
    call.script? name = none ∧ call.value? name = none ∧ call.enabled? name = none := by
  cases call <;> simp_all [required?, script?, value?, enabled?]

end RegistryCall

/-! ## What the calls tell -/

/-- The names of levers in the order of their first registrations. -/
def registeredNames (calls : List RegistryCall) : List String :=
  (calls.filterMap RegistryCall.registered?).eraseDups

/-- The last registration of a name and the calls after it. -/
def lastRegistration? (name : String) :
    List RegistryCall → Option (LeverDefinition × List RegistryCall)
  | [] => none
  | call :: later =>
    match lastRegistration? name later, call with
    | some found, _ => some found
    | none, .register definition => if definition.name = name then some (definition, later) else none
    | none, _ => none

/-- The lever that a registration and the calls after it make. -/
def leverSince (limits : ScriptLimits) (definition : LeverDefinition) (later : List RegistryCall) :
    Lever :=
  let script := (later.filterMap (RegistryCall.script? definition.name)).getLast?.getD
    definition.script
  { definition := { definition with script := script }
    value := (later.filterMap (RegistryCall.value? definition.name)).getLast?.getD
      definition.defaultValue
    enabled := (later.filterMap (RegistryCall.enabled? definition.name)).getLast?.getD true
    compiled := compile limits script }

def leverAfter? (limits : ScriptLimits) (calls : List RegistryCall) (name : String) : Option Lever :=
  (lastRegistration? name calls).map (fun (definition, later) => leverSince limits definition later)

namespace LeverRegistry

def perform (registry : LeverRegistry) : RegistryCall → Except UnknownLever LeverRegistry
  | .register definition => .ok (registry.register definition)
  | .updateScript name script => registry.updateScript name script
  | .setValue name value => registry.setValue name value
  | .setEnabled name enabled => registry.setEnabled name enabled

/-- The registry after a call that may be refused. -/
def performed (registry : LeverRegistry) (call : RegistryCall) : LeverRegistry :=
  match registry.perform call with
  | .ok changed => changed
  | .error _ => registry

def after (limits : ScriptLimits) (calls : List RegistryCall) : LeverRegistry :=
  calls.foldl performed (empty limits)

/-! ## One more call -/

theorem perform_required {registry : LeverRegistry} {call : RegistryCall} {name : String}
    (required : call.required? = some name) :
    registry.perform call = registry.modify name (call.change registry.limits) := by
  cases call <;> cases required <;> rfl

end LeverRegistry

section OneMore

variable {name : String} {calls : List RegistryCall} {call : RegistryCall}

theorem last_registration_name {definition : LeverDefinition} {later : List RegistryCall}
    (found : lastRegistration? name calls = some (definition, later)) : definition.name = name := by
  induction calls with
  | nil => cases found
  | cons call rest induction =>
      unfold lastRegistration? at found
      split at found
      next inner => exact induction (inner.trans found)
      next =>
          split at found
          next same =>
              cases found
              exact same
          next => cases found
      next => cases found

theorem last_registration_register (definition : LeverDefinition) :
    lastRegistration? definition.name (calls ++ [.register definition]) = some (definition, []) := by
  induction calls with
  | nil => simp [lastRegistration?]
  | cons call rest induction => simp [lastRegistration?, induction]

theorem last_registration_other (other : call.registered? ≠ some name) :
    lastRegistration? name (calls ++ [call]) =
      (lastRegistration? name calls).map (fun found => (found.1, found.2 ++ [call])) := by
  induction calls with
  | nil =>
      cases call with
      | register definition =>
          have different : definition.name ≠ name := fun same => other (congrArg some same)
          simp [lastRegistration?, different]
      | _ => rfl
  | cons first rest induction =>
      simp only [List.cons_append, lastRegistration?, induction]
      cases lastRegistration? name rest with
      | some found => rfl
      | none =>
          cases first with
          | register definition => by_cases same : definition.name = name <;> simp [same]
          | _ => rfl

theorem registered_names_concat :
    registeredNames (calls ++ [call]) =
      match call.registered? with
      | some name =>
        if name ∈ registeredNames calls then registeredNames calls
        else registeredNames calls ++ [name]
      | none => registeredNames calls := by
  unfold registeredNames
  rw [List.filterMap_append, List.eraseDups_append]
  cases registered : call.registered? with
  | none => simp [registered, List.removeAll]
  | some name =>
      generalize calls.filterMap RegistryCall.registered? = names
      by_cases known : name ∈ names <;>
        simp [registered, known, List.removeAll, List.eraseDups_cons]

variable {limits : ScriptLimits}

theorem lever_after_compiled {lever : Lever} (found : leverAfter? limits calls name = some lever) :
    lever.definition.name = name ∧ lever.compiled = compile limits lever.definition.script := by
  obtain ⟨⟨definition, later⟩, registered, rfl⟩ := Option.map_eq_some_iff.mp found
  have named := last_registration_name registered
  exact ⟨named, rfl⟩

theorem lever_after_register (definition : LeverDefinition) :
    leverAfter? limits (calls ++ [.register definition]) definition.name =
      some (definition.toLever limits) := by
  rw [leverAfter?, last_registration_register]
  rfl

theorem lever_since_other {definition : LeverDefinition} {later : List RegistryCall}
    (other : call.required? ≠ some definition.name) :
    leverSince limits definition (later ++ [call]) = leverSince limits definition later := by
  obtain ⟨script, value, enabled⟩ := RegistryCall.settings_none other
  simp [leverSince, script, value, enabled]

theorem lever_since_change {definition : LeverDefinition} {later : List RegistryCall}
    (required : call.required? = some definition.name) :
    leverSince limits definition (later ++ [call]) =
      call.change limits (leverSince limits definition later) := by
  cases call with
  | register definition => cases required
  | updateScript name script =>
      cases required
      by_cases same : (leverSince limits definition later).definition.script = script
      · rw [RegistryCall.change, Lever.withScript, if_pos same]
        subst same
        simp [leverSince, RegistryCall.script?, RegistryCall.value?, RegistryCall.enabled?]
      · rw [RegistryCall.change, Lever.withScript, if_neg same]
        simp [leverSince, RegistryCall.script?, RegistryCall.value?, RegistryCall.enabled?]
  | setValue name value =>
      cases required
      simp [leverSince, RegistryCall.script?, RegistryCall.value?, RegistryCall.enabled?, RegistryCall.change]
  | setEnabled name enabled =>
      cases required
      simp [leverSince, RegistryCall.script?, RegistryCall.value?, RegistryCall.enabled?, RegistryCall.change]

theorem lever_after_other (registered : call.registered? ≠ some name)
    (required : call.required? ≠ some name) :
    leverAfter? limits (calls ++ [call]) name = leverAfter? limits calls name := by
  rw [leverAfter?, last_registration_other registered, leverAfter?]
  cases found : lastRegistration? name calls with
  | none => rfl
  | some pair =>
      have named := last_registration_name found
      rw [← named] at required
      exact congrArg some (lever_since_other required)

theorem lever_after_change (required : call.required? = some name) :
    leverAfter? limits (calls ++ [call]) name =
      (leverAfter? limits calls name).map (call.change limits) := by
  have registered : call.registered? ≠ some name := by
    simp [RegistryCall.required_unregistered required]
  rw [leverAfter?, last_registration_other registered, leverAfter?]
  cases found : lastRegistration? name calls with
  | none => rfl
  | some pair =>
      have named := last_registration_name found
      rw [← named] at required
      exact congrArg some (lever_since_change required)

theorem lever_after_elsewhere {other : String} (required : call.required? = some name)
    (elsewhere : name ≠ other) :
    leverAfter? limits (calls ++ [call]) other = leverAfter? limits calls other := by
  apply lever_after_other
  · simp [RegistryCall.required_unregistered required]
  · intro here
    exact elsewhere (Option.some.inj (required.symm.trans here))

end OneMore

namespace LeverRegistry

/-- A registry is what the calls tell. -/
structure Tells (limits : ScriptLimits) (calls : List RegistryCall) (registry : LeverRegistry) :
    Prop where
  bounded : registry.limits = limits
  named : registry.names = registeredNames calls
  indexed : registry.Indexed
  found : ∀ name, registry.find? name = leverAfter? limits calls name

section Step

variable {limits : ScriptLimits} {calls : List RegistryCall} {registry : LeverRegistry}

theorem register_extended {definition : LeverDefinition}
    (fresh : registry.slots.get? definition.name = none) :
    registry.register definition = registry.extended (definition.toLever registry.limits) := by
  simp only [register, fresh]
  rfl

theorem register_changed {definition : LeverDefinition} {slot : Nat}
    (leads : registry.slots.get? definition.name = some slot) :
    registry.register definition =
      registry.changed slot (fun _ => definition.toLever registry.limits) := by
  simp only [register, leads, List.set_eq_modify]
  rfl

theorem register_limits (registry : LeverRegistry) (definition : LeverDefinition) :
    (registry.register definition).limits = registry.limits := by
  cases leads : registry.slots.get? definition.name with
  | none => rw [register_extended leads, extended]
  | some slot => rw [register_changed leads, changed]

theorem keeps_name (indexed : registry.Indexed) {name : String} {slot : Nat}
    (leads : registry.slots.get? name = some slot) {held lever : Lever}
    (stands : registry.levers[slot]? = some held) (named : lever.definition.name = name) :
    lever.definition.name = held.definition.name := by
  obtain ⟨other, same, here⟩ := names_slot.mp ((indexed name slot).mp leads)
  obtain rfl := Option.some.inj (stands.symm.trans same)
  rw [named, here]

theorem Indexed.register (indexed : registry.Indexed) (definition : LeverDefinition) :
    (registry.register definition).Indexed := by
  cases leads : registry.slots.get? definition.name with
  | none =>
      rw [register_extended leads]
      exact indexed.extended leads
  | some slot =>
      rw [register_changed leads]
      exact indexed.changed (fun held stands => keeps_name indexed leads stands rfl)

theorem register_names (indexed : registry.Indexed) (definition : LeverDefinition) :
    (registry.register definition).names =
      if definition.name ∈ registry.names then registry.names
      else registry.names ++ [definition.name] := by
  have known : (∃ slot, registry.slots.get? definition.name = some slot) ↔
      definition.name ∈ registry.names := indexed.slot_iff
  cases leads : registry.slots.get? definition.name with
  | none =>
      rw [if_neg (fun member => by simpa [leads] using known.mpr member), register_extended leads,
        extended_names]
      rfl
  | some slot =>
      rw [if_pos (known.mp ⟨slot, leads⟩), register_changed leads]
      exact changed_names (fun held stands => keeps_name indexed leads stands rfl)

theorem register_find (indexed : registry.Indexed) (definition : LeverDefinition) (name : String) :
    (registry.register definition).find? name =
      if name = definition.name then some (definition.toLever registry.limits)
      else registry.find? name := by
  cases leads : registry.slots.get? definition.name with
  | none =>
      rw [register_extended leads]
      exact extended_find indexed name
  | some slot =>
      obtain ⟨held, found⟩ := indexed.mem_names_iff.mp (indexed.slot_iff.mp ⟨slot, leads⟩)
      rw [register_changed leads, changed_find indexed leads, found]
      rfl

theorem Tells.register (tells : Tells limits calls registry) (definition : LeverDefinition) :
    Tells limits (calls ++ [.register definition]) (registry.register definition) := by
  refine ⟨(register_limits registry definition).trans tells.bounded, ?_,
    tells.indexed.register definition, ?_⟩
  · rw [register_names tells.indexed, registered_names_concat, ← tells.named]
    rfl
  · intro name
    rw [register_find tells.indexed, tells.bounded]
    by_cases same : name = definition.name
    · subst same
      rw [if_pos rfl, lever_after_register]
    · have registered : (RegistryCall.register definition).registered? ≠ some name :=
        fun found => same (Option.some.inj found).symm
      rw [if_neg same, lever_after_other registered (by simp [RegistryCall.required?]), ← tells.found]

theorem Tells.change (tells : Tells limits calls registry) {call : RegistryCall} {name : String}
    {slot : Nat} (required : call.required? = some name)
    (leads : registry.slots.get? name = some slot) :
    Tells limits (calls ++ [call]) (registry.changed slot (call.change limits)) := by
  have keeps (lever : Lever) (stands : registry.levers[slot]? = some lever) :
      (call.change limits lever).definition.name = lever.definition.name :=
    call.change_name limits lever
  refine ⟨tells.bounded, ?_, tells.indexed.changed keeps, ?_⟩
  · rw [changed_names keeps, registered_names_concat, RegistryCall.required_unregistered required,
      tells.named]
  · intro other
    rw [changed_find tells.indexed leads]
    by_cases same : other = name
    · subst same
      rw [if_pos rfl, lever_after_change required, tells.found]
    · rw [if_neg same, lever_after_elsewhere required (Ne.symm same), ← tells.found]

/-- A lever that is not there is refused, and the calls tell no more about it. -/
theorem Tells.refuse (tells : Tells limits calls registry) {call : RegistryCall} {name : String}
    (required : call.required? = some name) (missing : registry.find? name = none) :
    Tells limits (calls ++ [call]) registry := by
  refine ⟨tells.bounded, ?_, tells.indexed, ?_⟩
  · rw [registered_names_concat, RegistryCall.required_unregistered required, tells.named]
  · intro other
    by_cases same : name = other
    · subst same
      rw [lever_after_change required, ← tells.found, missing]
      rfl
    · rw [lever_after_elsewhere required same, ← tells.found]

theorem perform_missing (indexed : registry.Indexed) {call : RegistryCall} {name : String}
    (required : call.required? = some name) (missing : registry.find? name = none) :
    registry.perform call = .error ⟨name⟩ := by
  rw [perform_required required, modify, indexed.missing_slot missing]

theorem Tells.step (tells : Tells limits calls registry) (call : RegistryCall) :
    Tells limits (calls ++ [call]) (registry.performed call) := by
  cases required : call.required? with
  | none =>
      cases call with
      | register definition => exact tells.register definition
      | _ => cases required
  | some name =>
      cases found : registry.find? name with
      | none =>
          rw [performed, perform_missing tells.indexed required found]
          exact tells.refuse required found
      | some lever =>
          obtain ⟨slot, leads, _⟩ := Option.bind_eq_some_iff.mp found
          obtain rfl := tells.bounded
          have changed : registry.performed call =
              registry.changed slot (call.change registry.limits) := by
            rw [performed, perform_required required, modify, leads]
            rfl
          rw [changed]
          exact tells.change required leads

theorem after_concat (limits : ScriptLimits) (calls : List RegistryCall) (call : RegistryCall) :
    after limits (calls ++ [call]) = (after limits calls).performed call := by
  simp [after]

theorem after_tells (limits : ScriptLimits) (calls : List RegistryCall) :
    Tells limits calls (after limits calls) := by
  induction calls using List.reverseRecOn with
  | nil => exact ⟨rfl, rfl, empty_indexed limits, fun _ => rfl⟩
  | append_singleton calls call induction =>
      rw [after_concat]
      exact induction.step call

end Step

/-! ## Values and slots -/

section Indexed

variable {registry : LeverRegistry}

theorem get_inputs (indexed : registry.Indexed) (name : String) :
    registry.inputs.get? name = (registry.find? name).map Lever.value := by
  have keys : ((registry.levers.map (fun lever => (lever.definition.name, lever.value))).map
      Prod.fst).Nodup := by
    rw [List.map_map]
    exact indexed.distinct
  rw [inputs, SortedMap.get_of_list keys, List.find?_map, Option.map_map, indexed.find_eq]
  rfl

theorem found_in_slots (indexed : registry.Indexed) :
    registry.levers.map some = registry.names.map registry.find? := by
  rw [names, List.map_map]
  apply List.map_congr_left
  intro lever member
  exact (indexed.find_iff.mpr ⟨member, rfl⟩).symm

end Indexed

/-! ## The order of application -/

section Order

variable {registry : LeverRegistry}

theorem ordered_perm (registry : LeverRegistry) :
    registry.ordered.Perm (registry.levers.filterMap Lever.applied?) :=
  List.mergeSort_perm _ _

theorem priority_trans (first second third : CompiledLever)
    (early : decide (first.priority ≤ second.priority) = true)
    (late : decide (second.priority ≤ third.priority) = true) :
    decide (first.priority ≤ third.priority) = true := by
  simp only [decide_eq_true_eq] at early late ⊢
  exact Int.le_trans early late

theorem priority_total (first second : CompiledLever) :
    (decide (first.priority ≤ second.priority) || decide (second.priority ≤ first.priority)) =
      true := by
  simpa using Int.le_total first.priority second.priority

theorem ordered_ascending (registry : LeverRegistry) :
    registry.ordered.Pairwise (fun earlier later => earlier.priority ≤ later.priority) := by
  have sorted := List.pairwise_mergeSort priority_trans priority_total
    (registry.levers.filterMap Lever.applied?)
  exact sorted.imp (fun ordered => by simpa using ordered)

/-- Levers of one priority stay in the order of the registry. -/
theorem ordered_stable (registry : LeverRegistry) (priority : Int) :
    registry.ordered.filter (fun lever => lever.priority = priority) =
      (registry.levers.filterMap Lever.applied?).filter (fun lever => lever.priority = priority) := by
  generalize enabled : registry.levers.filterMap Lever.applied? = applied
  have equals : (applied.filter (fun lever => lever.priority = priority)).Pairwise
      (fun earlier later => decide (earlier.priority ≤ later.priority) = true) := by
    apply List.pairwise_of_forall_mem_list
    intro first firstMember second secondMember
    simp only [List.mem_filter, decide_eq_true_eq] at firstMember secondMember ⊢
    omega
  -- What is in order already is kept as it stands by the sort.
  have kept := List.sublist_mergeSort priority_trans priority_total equals List.filter_sublist
  have inside : (applied.filter (fun lever => lever.priority = priority)).Sublist
      (registry.ordered.filter (fun lever => lever.priority = priority)) := by
    have again := kept.filter (fun lever => lever.priority = priority)
    rw [List.filter_filter] at again
    simpa [ordered, enabled] using again
  have permuted := (ordered_perm registry).filter (fun lever => lever.priority = priority)
  rw [enabled] at permuted
  exact (inside.eq_of_length permuted.length_eq.symm).symm

theorem ordered_of_perm {other : LeverRegistry} (permuted : registry.levers.Perm other.levers)
    (distinct : (registry.levers.map (fun lever => lever.definition.priority)).Nodup) :
    registry.ordered = other.ordered := by
  apply List.Perm.eq_of_pairwise _ (ordered_ascending registry) (ordered_ascending other)
    (((ordered_perm registry).trans (permuted.filterMap _)).trans (ordered_perm other).symm)
  intro first second firstMember secondMember less greater
  obtain ⟨lever, member, applied⟩ := List.mem_filterMap.mp ((ordered_perm registry).subset firstMember)
  obtain ⟨peer, peerMember, peerApplied⟩ :=
    List.mem_filterMap.mp ((ordered_perm other).subset secondMember)
  obtain ⟨_, program, _, rfl⟩ := Lever.applied_iff.mp applied
  obtain ⟨_, peerProgram, _, rfl⟩ := Lever.applied_iff.mp peerApplied
  have same : lever.definition.priority = peer.definition.priority := Int.le_antisymm less greater
  obtain rfl := List.inj_on_of_nodup_map distinct member (permuted.symm.subset peerMember) same
  exact Option.some.inj (applied.symm.trans peerApplied)

theorem mem_ordered_iff (indexed : registry.Indexed) (applied : CompiledLever) :
    applied ∈ registry.ordered ↔ ∃ lever program, registry.find? applied.name = some lever ∧
      lever.enabled = true ∧ lever.compiled = .program program ∧
        applied = ⟨lever.definition.name, lever.definition.priority, program⟩ := by
  rw [(ordered_perm registry).mem_iff, List.mem_filterMap]
  constructor
  · rintro ⟨lever, member, found⟩
    obtain ⟨enabled, program, compiled, rfl⟩ := Lever.applied_iff.mp found
    exact ⟨lever, program, indexed.find_iff.mpr ⟨member, rfl⟩, enabled, compiled, rfl⟩
  · rintro ⟨lever, program, found, enabled, compiled, same⟩
    exact ⟨lever, (indexed.find_iff.mp found).1, Lever.applied_iff.mpr ⟨enabled, program, compiled, same⟩⟩

theorem applied_names (levers : List Lever) :
    ((levers.filterMap Lever.applied?).map CompiledLever.name).Sublist
      (levers.map (fun lever => lever.definition.name)) := by
  induction levers with
  | nil => exact .slnil
  | cons lever rest induction =>
      rw [List.filterMap_cons]
      split
      next => exact induction.cons _
      next applied found =>
          obtain ⟨_, program, _, rfl⟩ := Lever.applied_iff.mp found
          exact induction.cons_cons _

theorem places_ascend {names : List String} (distinct : names.Nodup) :
    names.Pairwise (fun earlier later => names.idxOf earlier < names.idxOf later) := by
  rw [List.pairwise_iff_getElem]
  intro first second inside bound less
  rwa [distinct.idxOf_getElem, distinct.idxOf_getElem]

/-- Of two levers the one with the lesser priority comes first, of equal ones the one in the earlier slot. -/
theorem ordered_by_slot (indexed : registry.Indexed) :
    registry.ordered.Pairwise (fun earlier later => earlier.priority < later.priority ∨
      earlier.priority = later.priority ∧
        registry.names.idxOf earlier.name < registry.names.idxOf later.name) := by
  rw [List.pairwise_iff_forall_sublist]
  intro earlier later together
  have ascending := List.pairwise_iff_forall_sublist.mp (ordered_ascending registry) together
  rcases Int.lt_or_eq_of_le ascending with less | same
  · exact .inl less
  · refine .inr ⟨same, ?_⟩
    have alike := together.filter (fun lever => decide (lever.priority = later.priority))
    rw [ordered_stable] at alike
    simp only [same, decide_true, List.filter_cons_of_pos, List.filter_nil] at alike
    have named := (alike.trans List.filter_sublist).map CompiledLever.name
    exact List.pairwise_iff_forall_sublist.mp (places_ascend indexed.distinct)
      (named.trans (applied_names registry.levers))

end Order

/-! ## Registrations in any order -/

theorem levers_registered (limits : ScriptLimits) {definitions : List LeverDefinition}
    (distinct : (definitions.map LeverDefinition.name).Nodup) :
    (after limits (definitions.map RegistryCall.register)).levers =
      definitions.map (LeverDefinition.toLever limits) := by
  induction definitions using List.reverseRecOn with
  | nil => rfl
  | append_singleton definitions definition induction =>
      rw [List.map_append, List.nodup_append] at distinct
      obtain ⟨earlier, _, fresh⟩ := distinct
      have levers := induction earlier
      have tells := after_tells limits (definitions.map RegistryCall.register)
      have missing : (after limits (definitions.map RegistryCall.register)).slots.get? definition.name =
          none := by
        rw [Option.eq_none_iff_forall_ne_some]
        intro slot leads
        have known := tells.indexed.slot_iff.mp ⟨slot, leads⟩
        rw [names, levers, List.map_map] at known
        exact fresh definition.name known definition.name (by simp) rfl
      rw [List.map_append, List.map_singleton, after_concat, List.map_append, ← levers]
      change (LeverRegistry.register _ definition).levers = _
      rw [register_extended missing, tells.bounded]
      rfl

theorem registrations_permuted (limits : ScriptLimits) {definitions others : List LeverDefinition}
    (permuted : definitions.Perm others) (names : (definitions.map LeverDefinition.name).Nodup)
    (priorities : (definitions.map LeverDefinition.priority).Nodup) :
    (after limits (definitions.map RegistryCall.register)).ordered =
        (after limits (others.map RegistryCall.register)).ordered ∧
      (after limits (definitions.map RegistryCall.register)).inputs =
        (after limits (others.map RegistryCall.register)).inputs := by
  have otherNames := (permuted.map LeverDefinition.name).nodup_iff.mp names
  have levers : (after limits (definitions.map RegistryCall.register)).levers.Perm
      (after limits (others.map RegistryCall.register)).levers := by
    rw [levers_registered limits names, levers_registered limits otherNames]
    exact permuted.map _
  have first := (after_tells limits (definitions.map RegistryCall.register)).indexed
  have second := (after_tells limits (others.map RegistryCall.register)).indexed
  constructor
  · apply ordered_of_perm levers
    rw [levers_registered limits names, List.map_map]
    exact priorities
  · apply SortedMap.ext_get
    intro name
    have found : (after limits (definitions.map RegistryCall.register)).find? name =
        (after limits (others.map RegistryCall.register)).find? name := by
      apply Option.ext
      intro lever
      rw [first.find_iff, second.find_iff, levers.mem_iff]
    rw [get_inputs first, get_inputs second, found]

/-- What a registry holds after any calls: the levers registered, each in the slot of its first
registration, where its name leads, and as the calls since its last one made it; their values; and, by priority
and slot, the programs of those that are enabled and compile to one.  A call for a lever that is not there changes
nothing, and registrations of distinct names and priorities may be made in any order. -/
theorem registries_tell_their_history (limits : ScriptLimits) (calls : List RegistryCall) :
    ((after limits calls).names = registeredNames calls ∧ (after limits calls).names.Nodup ∧
      (∀ name slot, (after limits calls).slots.get? name = some slot ↔
        (registeredNames calls)[slot]? = some name) ∧
      (after limits calls).levers.map some = (registeredNames calls).map (leverAfter? limits calls) ∧
      ∀ name, (after limits calls).find? name = leverAfter? limits calls name) ∧
    (∀ lever ∈ (after limits calls).levers,
      lever.compiled = compile limits lever.definition.script) ∧
    (∀ call name, RegistryCall.required? call = some name → name ∉ registeredNames calls →
      (after limits calls).perform call = .error ⟨name⟩ ∧
        after limits (calls ++ [call]) = after limits calls) ∧
    (∀ name, (after limits calls).inputs.get? name =
      (leverAfter? limits calls name).map Lever.value) ∧
    ((∀ applied, applied ∈ (after limits calls).ordered ↔
        ∃ lever program, leverAfter? limits calls applied.name = some lever ∧ lever.enabled = true ∧
          lever.compiled = .program program ∧
          applied = ⟨lever.definition.name, lever.definition.priority, program⟩) ∧
      (after limits calls).ordered.Pairwise (fun earlier later => earlier.priority < later.priority ∨
        earlier.priority = later.priority ∧
          (registeredNames calls).idxOf earlier.name < (registeredNames calls).idxOf later.name)) ∧
    ∀ definitions others : List LeverDefinition, definitions.Perm others →
      (definitions.map LeverDefinition.name).Nodup →
      (definitions.map LeverDefinition.priority).Nodup →
      (after limits (definitions.map RegistryCall.register)).ordered =
          (after limits (others.map RegistryCall.register)).ordered ∧
        (after limits (definitions.map RegistryCall.register)).inputs =
          (after limits (others.map RegistryCall.register)).inputs := by
  have tells := after_tells limits calls
  have slots : (after limits calls).levers.map some =
      (registeredNames calls).map (leverAfter? limits calls) := by
    rw [found_in_slots tells.indexed, tells.named]
    exact List.map_congr_left (fun name _ => tells.found name)
  refine ⟨⟨tells.named, tells.indexed.distinct, ?_, slots, tells.found⟩, ?_, ?_, ?_, ⟨?_, ?_⟩,
    fun definitions others permuted => registrations_permuted limits permuted⟩
  · intro name slot
    rw [← tells.named]
    exact tells.indexed name slot
  · intro lever member
    have found := tells.indexed.find_iff.mpr ⟨member, rfl⟩
    rw [tells.found] at found
    exact (lever_after_compiled found).2
  · intro call name required unknown
    have missing : (after limits calls).find? name = none := by
      rw [← tells.named, tells.indexed.mem_names_iff] at unknown
      exact Option.eq_none_iff_forall_ne_some.mpr (fun lever found => unknown ⟨lever, found⟩)
    have refused := perform_missing tells.indexed required missing
    refine ⟨refused, ?_⟩
    rw [after_concat, performed, refused]
  · intro name
    rw [get_inputs tells.indexed, tells.found]
  · intro applied
    rw [mem_ordered_iff tells.indexed, tells.found]
  · rw [← tells.named]
    exact ordered_by_slot tells.indexed

/-- Three levers, one of them registered twice and one disabled, and one that is not there. -/
def sampleCalls : List RegistryCall :=
  [.register { name := "tax", priority := 2, script := "out.x = 1;", defaultValue := 4.0 },
    .register { name := "ban", priority := 1, script := "" },
    .setValue "tax" 5.0, .setEnabled "ban" false, .setValue "levy" 6.0,
    .register { name := "cap", priority := 3, script := "out.z = 3;" },
    .register { name := "ban", priority := 3, script := "out.y = 2;", defaultValue := 7.0 },
    .setEnabled "tax" false]

def settingProgram (path : String) (value : Float) : Program :=
  ⟨[.assign (.parse path) (.number value)], 10000⟩

theorem sample_calls_told :
    (after {} sampleCalls).names = ["tax", "ban", "cap"] ∧
    (after {} sampleCalls).slots.get? "ban" = some 1 ∧
    (after {} sampleCalls).inputs.get? "tax" = some 5.0 ∧
    (after {} sampleCalls).inputs.get? "ban" = some 7.0 ∧
    (∃ lever, (after {} sampleCalls).find? "ban" = some lever ∧ lever.enabled = true) ∧
    (∀ lever ∈ (after {} sampleCalls).ordered, lever.name ≠ "tax") ∧
    (after {} sampleCalls).ordered =
      [⟨"ban", 3, settingProgram "out.y" 2.0⟩, ⟨"cap", 3, settingProgram "out.z" 3.0⟩] ∧
    (after {} sampleCalls).perform (.updateScript "levy" "") = .error ⟨"levy"⟩ ∧
    after {} (sampleCalls ++ [.updateScript "levy" ""]) = after {} sampleCalls ∧
    (after {} ([{ name := "tax", priority := 2, script := "a" },
        { name := "ban", priority := 1, script := "b" }].map .register)).ordered =
      (after {} ([{ name := "ban", priority := 1, script := "b" },
        { name := "tax", priority := 2, script := "a" }].map .register)).ordered := by
  obtain ⟨⟨names, _, slots, _, found⟩, _, unknown, inputs, ⟨applied, _⟩, permuted⟩ :=
    registries_tell_their_history {} sampleCalls
  have told : registeredNames sampleCalls = ["tax", "ban", "cap"] := by decide +kernel
  obtain ⟨refused, unchanged⟩ := unknown (.updateScript "levy" "") "levy" rfl (by
    rw [told]
    decide)
  have disabled : (leverAfter? {} sampleCalls "tax").map Lever.enabled = some false := by decide +kernel
  have runs : (after {} sampleCalls).levers.filterMap Lever.applied? =
      [⟨"ban", 3, settingProgram "out.y" 2.0⟩, ⟨"cap", 3, settingProgram "out.z" 3.0⟩] := by decide +kernel
  refine ⟨names.trans told, (slots _ _).mpr (told ▸ rfl), (inputs "tax").trans rfl,
    (inputs "ban").trans rfl, ⟨_, (found "ban").trans rfl, rfl⟩, ?_, ?_, refused, unchanged,
    (permuted _ _ (.swap _ _ _) (by decide) (by decide)).1⟩
  · intro lever member named
    obtain ⟨tax, _, here, enabled, _⟩ := (applied lever).mp member
    rw [named] at here
    rw [here, Option.map_some, enabled] at disabled
    cases disabled
  · rw [ordered, runs]
    exact List.mergeSort_of_pairwise (by decide)

end LeverRegistry

end PolicyLevers
