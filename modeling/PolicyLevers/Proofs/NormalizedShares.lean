import PolicyLevers.Projection.Series
import PolicyLevers.Proofs.NeutralNumbers
import PolicyLevers.Proofs.TrendLines

/-!
# Quantities replaced by shares

Normalizing divides the attributes of a group that a region has by their sum.  The view of shares goes over
all names of the group and counts those that the region lacks as zeros.  Both come to the same numbers, for a
zero in a sum changes nothing that is not a zero itself.
-/

namespace PolicyLevers

set_option autoImplicit false

open SortedMap Decimal

def sharedGroups : List (List String) := [Catalog.consumption, Catalog.endOfLife]

namespace Attributes

def presentTotal (attributes : Attributes) (group : List String) : Float :=
  total (group.filterMap attributes.get?)

/-- The attributes of a group can be replaced by shares. -/
def Divisible (attributes : Attributes) (group : List String) : Prop :=
  (attributes.presentTotal group == 0.0) = false ∧ (attributes.presentTotal group).isFinite = true

variable {attributes : Attributes} {group : List String} {name : String}

theorem normalized_divisible (divisible : Divisible attributes group) :
    attributes.normalized group = attributes.mapValues (fun name value =>
      if group.contains name then value / attributes.presentTotal group else value) := by
  obtain ⟨visible, finite⟩ := divisible
  unfold presentTotal at visible finite
  unfold normalized
  simp [visible, finite, presentTotal]

theorem normalized_indivisible (indivisible : ¬Divisible attributes group) :
    attributes.normalized group = attributes := by
  unfold normalized
  dsimp only
  split
  · rfl
  next usable =>
      exact absurd (by simpa [Divisible, presentTotal] using usable) indivisible

theorem normalized_keys (attributes : Attributes) (group : List String) :
    (attributes.normalized group).keys = attributes.keys := by
  by_cases divisible : Divisible attributes group
  · rw [normalized_divisible divisible, keys_map_values]
  · rw [normalized_indivisible divisible]

theorem normalized_outside (outside : name ∉ group) :
    (attributes.normalized group).get? name = attributes.get? name := by
  by_cases divisible : Divisible attributes group
  · rw [normalized_divisible divisible, get_map_values]
    simp [outside]
  · rw [normalized_indivisible divisible]

theorem normalized_inside (divisible : Divisible attributes group) (inside : name ∈ group) :
    (attributes.normalized group).get? name =
      (attributes.get? name).map (fun value => value / attributes.presentTotal group) := by
  rw [normalized_divisible divisible, get_map_values]
  simp [inside]

/-- Groups without a common name do not see each other. -/
theorem normalized_total {other : List String} (apart : ∀ name ∈ other, name ∉ group) :
    (attributes.normalized group).presentTotal other = attributes.presentTotal other := by
  unfold presentTotal
  congr 1
  exact List.filterMap_congr (fun name inside => normalized_outside (apart name inside))

/-- The share of a name that is present is its part of the sum of what is present. -/
theorem shares_of_present (divisible : Divisible attributes group) (inside : name ∈ group)
    {value : Float} (present : attributes.get? name = some value) :
    (attributes.shares group .fraction).get? name = some (value / attributes.presentTotal group) := by
  obtain ⟨visible, -⟩ := divisible
  have whole : attributes.presentTotal group =
      total (group.map (fun name => (attributes.get? name).getD 0.0)) := by
    have alike := total_with_zeros (group.map attributes.get?)
    rw [List.filterMap_map, List.map_map] at alike
    rcases alike with same | ⟨zero, _⟩
    · exact same
    · rw [presentTotal] at visible
      exact absurd zero (by rw [Function.id_comp, visible]; decide)
  unfold shares
  dsimp only
  rw [get_of_function, if_pos inside, ← whole, visible, present]
  exact congrArg some (times_one _)

end Attributes

namespace Baseline

def inShares (attributes : Attributes) : Attributes :=
  (attributes.normalized Catalog.consumption).normalized Catalog.endOfLife

theorem groups_apart : ∀ name ∈ Catalog.endOfLife, name ∉ Catalog.consumption := by
  decide +kernel

variable {attributes : Attributes} {group : List String} {name : String}

theorem in_shares_keys (attributes : Attributes) : (inShares attributes).keys = attributes.keys := by
  rw [inShares, Attributes.normalized_keys, Attributes.normalized_keys]

theorem in_shares_outside (outside : ∀ group ∈ sharedGroups, name ∉ group) :
    (inShares attributes).get? name = attributes.get? name := by
  rw [inShares, Attributes.normalized_outside (outside _ (by simp [sharedGroups])),
    Attributes.normalized_outside (outside _ (by simp [sharedGroups]))]

/-- Of a group only its own normalization is seen: the other one changes neither its values nor its sum. -/
theorem in_shares_of_group (listed : group ∈ sharedGroups) (inside : name ∈ group) :
    (inShares attributes).get? name = (attributes.normalized group).get? name := by
  simp only [sharedGroups, List.mem_cons, List.not_mem_nil, or_false] at listed
  rcases listed with rfl | rfl
  · exact Attributes.normalized_outside (fun other => groups_apart name other inside)
  · have total : (attributes.normalized Catalog.consumption).presentTotal Catalog.endOfLife =
        attributes.presentTotal Catalog.endOfLife := Attributes.normalized_total groups_apart
    have same : (attributes.normalized Catalog.consumption).get? name = attributes.get? name :=
      Attributes.normalized_outside (groups_apart name inside)
    by_cases divisible : attributes.Divisible Catalog.endOfLife
    · have still : (attributes.normalized Catalog.consumption).Divisible Catalog.endOfLife := by
        unfold Attributes.Divisible
        rw [total]
        exact divisible
      rw [inShares, Attributes.normalized_inside still inside, Attributes.normalized_inside divisible inside,
        total, same]
    · have neither : ¬(attributes.normalized Catalog.consumption).Divisible Catalog.endOfLife := by
        unfold Attributes.Divisible
        rw [total]
        exact divisible
      rw [inShares, Attributes.normalized_indivisible neither, same,
        Attributes.normalized_indivisible divisible]

theorem normalized_regions (baseline : Baseline) (range : YearRange) (year : Int) :
    (baseline.withNormalizedShares range).regions? year = (baseline.regions? year).map (fun table =>
      if range.contains year then table.mapValues (fun _ attributes => inShares attributes) else table) :=
  get_map_values baseline.years _ year

/-- Normalizing keeps all years, regions and names, and the tables of the years outside the range.  In a year of
the range a group whose present attributes have a sum that is finite and not zero gets exactly the numbers that
the view of shares has for them in the table as it was; another group keeps its values, and so does every name
of no group.  A group normalized first leaves the sum of the other one as it is. -/
theorem normalized_shares_are_viewed_shares (baseline : Baseline) (range : YearRange) (year : Int) :
    ((baseline.withNormalizedShares range).regions? year = none ↔ baseline.regions? year = none) ∧
    ∀ table after, baseline.regions? year = some table →
      (baseline.withNormalizedShares range).regions? year = some after →
      after.keys = table.keys ∧ (range.contains year = false → after = table) ∧
      ∀ region attributes shared, table.get? region = some attributes →
        after.get? region = some shared →
        shared.keys = attributes.keys ∧
        (∀ name, (∀ group ∈ sharedGroups, name ∉ group) → shared.get? name = attributes.get? name) ∧
        (∀ group ∈ sharedGroups, ∀ name ∈ group,
          (range.contains year = true → attributes.Divisible group →
            ∀ value, attributes.get? name = some value →
              shared.get? name = cell? (RegionTable.shares table group .fraction) region name) ∧
          (¬attributes.Divisible group → shared.get? name = attributes.get? name)) ∧
        ∀ group ∈ sharedGroups, ∀ other ∈ sharedGroups, other ≠ group →
          (attributes.normalized group).presentTotal other = attributes.presentTotal other := by
  rw [normalized_regions]
  refine ⟨Option.map_eq_none_iff, ?_⟩
  intro table after data changed
  rw [data, Option.map_some, Option.some.injEq] at changed
  have apart (attributes : Attributes) : ∀ group ∈ sharedGroups, ∀ other ∈ sharedGroups, other ≠ group →
      (attributes.normalized group).presentTotal other = attributes.presentTotal other := by
    intro group listed other also different
    simp only [sharedGroups, List.mem_cons, List.not_mem_nil, or_false] at listed also
    rcases listed with rfl | rfl <;> rcases also with rfl | rfl
    · exact absurd rfl different
    · exact Attributes.normalized_total groups_apart
    · exact Attributes.normalized_total (fun name inside own => groups_apart name own inside)
    · exact absurd rfl different
  cases inside : range.contains year with
  | false =>
      rw [inside, if_neg Bool.false_ne_true] at changed
      subst changed
      refine ⟨rfl, fun _ => rfl, ?_⟩
      intro region attributes shared found same
      obtain rfl : attributes = shared := Option.some.inj (found.symm.trans same)
      exact ⟨rfl, fun _ _ => rfl, fun _ _ _ _ => ⟨nofun, fun _ => rfl⟩,
        apart attributes⟩
  | true =>
      rw [inside, if_pos rfl] at changed
      subst changed
      refine ⟨keys_map_values table _, nofun, ?_⟩
      intro region attributes shared found same
      rw [get_map_values, found, Option.map_some, Option.some.injEq] at same
      subst same
      refine ⟨in_shares_keys attributes, fun name => in_shares_outside, ?_, apart attributes⟩
      intro group listed name member
      rw [in_shares_of_group listed member]
      refine ⟨fun _ divisible value present => ?_, fun indivisible => ?_⟩
      · have viewed : cell? (RegionTable.shares table group .fraction) region name =
            (attributes.shares group .fraction).get? name := by
          rw [cell?, RegionTable.shares, get_map_values, found]
          rfl
        rw [viewed, Attributes.shares_of_present divisible member present,
          Attributes.normalized_inside divisible member, present, Option.map_some]
      · rw [Attributes.normalized_indivisible indivisible]

/-- Consumption with a zero in it, waste that comes to nothing, and a name of no group. -/
def mixedAttributes : Attributes :=
  .ofList [("consumptionOtherMT", -1.0), ("consumptionPackagingMT", 4.0), ("consumptionTextileMT", -0.0),
    ("eolLandfillMT", 2.0), ("eolRecyclingMT", -2.0), ("reuse", 7.0)]

def mixedTable : RegionTable := .ofList [("china", mixedAttributes)]

def mixedBaseline : Baseline := ⟨.ofList [(2021, mixedTable)]⟩

theorem mixed_baseline_is_normalized :
    mixedBaseline.regions? 2021 = some mixedTable ∧
    (mixedAttributes.Divisible Catalog.consumption ∧ ¬mixedAttributes.Divisible Catalog.endOfLife) ∧
    ∃ after shared, (mixedBaseline.withNormalizedShares ⟨2020, 2022⟩).regions? 2021 = some after ∧
      mixedTable.get? "china" = some mixedAttributes ∧ after.get? "china" = some shared ∧
      shared.get? "reuse" = some 7.0 ∧ shared.get? "eolRecyclingMT" = some (-2.0) ∧
      shared.get? "consumptionTextileMT" =
        cell? (RegionTable.shares mixedTable Catalog.consumption .fraction) "china" "consumptionTextileMT" := by
  obtain ⟨_, normalized⟩ := normalized_shares_are_viewed_shares mixedBaseline ⟨2020, 2022⟩ 2021
  have data : mixedBaseline.regions? 2021 = some mixedTable := by decide +kernel
  have found : mixedTable.get? "china" = some mixedAttributes := by decide +kernel
  have consumed : mixedAttributes.Divisible Catalog.consumption := by
    unfold Attributes.Divisible
    decide +kernel
  have wasted : ¬mixedAttributes.Divisible Catalog.endOfLife := by
    unfold Attributes.Divisible
    decide +kernel
  have shown : (((mixedBaseline.withNormalizedShares ⟨2020, 2022⟩).regions? 2021).bind
      (fun after => after.get? "china")).isSome = true := by decide +kernel
  obtain ⟨shared, present⟩ := Option.isSome_iff_exists.mp shown
  obtain ⟨after, changed, shared_found⟩ := Option.bind_eq_some_iff.mp present
  obtain ⟨_, _, regions⟩ := normalized mixedTable after data changed
  obtain ⟨_, others, groups, _⟩ := regions "china" mixedAttributes shared found shared_found
  have reuse : mixedAttributes.get? "reuse" = some 7.0 := by decide +kernel
  have recycled : mixedAttributes.get? "eolRecyclingMT" = some (-2.0) := by decide +kernel
  have textile : mixedAttributes.get? "consumptionTextileMT" = some (-0.0) := by decide +kernel
  refine ⟨data, ⟨consumed, wasted⟩, after, shared, changed, found, shared_found, ?_, ?_, ?_⟩
  · rw [others "reuse" (by decide +kernel), reuse]
  · rw [(groups Catalog.endOfLife (by decide +kernel) "eolRecyclingMT" (by decide +kernel)).2 wasted, recycled]
  · exact (groups Catalog.consumption (by decide +kernel) "consumptionTextileMT" (by decide +kernel)).1
      (by decide) consumed (-0.0) textile

end Baseline

end PolicyLevers
