import PolicyLevers.SortedMap

/-!
# Laws of maps in key order

A write decides one key and leaves all others alone.
-/

namespace PolicyLevers.SortedMap

set_option autoImplicit false

variable {κ ν : Type} [Ord κ]

@[simp] theorem get_empty (key : κ) : (∅ : SortedMap κ ν).get? key = none := rfl

@[simp] theorem is_empty_empty : (∅ : SortedMap κ ν).isEmpty = true := rfl

section Lookup

variable [Std.LawfulEqOrd κ]

theorem lookup_place_same (key : κ) (value : ν) (entries : List (κ × ν)) :
    lookup key (place key value entries) = some value := by
  induction entries with
  | nil => simp [place, lookup]
  | cons entry rest ih =>
      obtain ⟨other, held⟩ := entry
      unfold place
      split
      · simp [lookup]
      · simp [lookup]
      next greater => simp [lookup, greater, ih]

theorem lookup_place_other {key other : κ} (different : other ≠ key) (value : ν)
    (entries : List (κ × ν)) :
    lookup other (place key value entries) = lookup other entries := by
  induction entries with
  | nil => simp [place, lookup, different]
  | cons entry rest ih =>
      obtain ⟨head, held⟩ := entry
      unfold place
      split
      · simp [lookup, different]
      next same =>
          have headKey : key = head := Std.LawfulEqOrd.eq_of_compare same
          subst headKey
          simp [lookup, different]
      · by_cases found : other = head <;> simp [lookup, found, ih]

end Lookup

variable [Std.TransOrd κ] [Std.LawfulEqOrd κ]

@[simp] theorem get_insert_same (map : SortedMap κ ν) (key : κ) (value : ν) :
    (map.insert key value).get? key = some value :=
  lookup_place_same key value map.entries

theorem get_insert_other (map : SortedMap κ ν) {key other : κ} (different : other ≠ key)
    (value : ν) : (map.insert key value).get? other = map.get? other :=
  lookup_place_other different value map.entries

theorem get_insert [DecidableEq κ] (map : SortedMap κ ν) (key other : κ) (value : ν) :
    (map.insert key value).get? other = if other = key then some value else map.get? other := by
  by_cases same : other = key
  · subst same
    simp
  · simp [same, get_insert_other map same]

theorem get_insert_all [DecidableEq κ] {entries : List (κ × ν)} (distinct : (entries.map Prod.fst).Nodup)
    (map : SortedMap κ ν) (key : κ) :
    (entries.foldl (fun map entry => map.insert entry.1 entry.2) map).get? key =
      ((entries.find? (fun entry => entry.1 = key)).map Prod.snd).or (map.get? key) := by
  induction entries generalizing map with
  | nil => simp
  | cons entry rest induction =>
      obtain ⟨name, value⟩ := entry
      simp only [List.map_cons, List.nodup_cons] at distinct
      obtain ⟨fresh, others⟩ := distinct
      rw [List.foldl_cons, induction others, get_insert, List.find?_cons]
      by_cases same : name = key
      · subst same
        have absent : rest.find? (fun entry => entry.1 = name) = none := by
          simp only [List.find?_eq_none, decide_eq_true_eq]
          exact fun entry member found => fresh (found ▸ List.mem_map_of_mem member)
        simp [absent]
      · simp [same, Ne.symm same]

theorem get_of_list [DecidableEq κ] {entries : List (κ × ν)}
    (distinct : (entries.map Prod.fst).Nodup) (key : κ) :
    (ofList entries).get? key = (entries.find? (fun entry => entry.1 = key)).map Prod.snd := by
  refine (get_insert_all distinct empty key).trans ?_
  cases entries.find? (fun entry => entry.1 = key) <;> rfl

/-- Of entries with one key the last counts. -/
theorem get_insert_last [DecidableEq κ] (entries : List (κ × ν)) (map : SortedMap κ ν) (key : κ) :
    (entries.foldl (fun map entry => map.insert entry.1 entry.2) map).get? key =
      ((entries.reverse.find? (fun entry => entry.1 = key)).map Prod.snd).or (map.get? key) := by
  induction entries generalizing map with
  | nil => simp
  | cons entry rest induction =>
      obtain ⟨name, value⟩ := entry
      rw [List.foldl_cons, induction, get_insert, List.reverse_cons, List.find?_append]
      cases rest.reverse.find? (fun entry => entry.1 = key) with
      | some later => simp
      | none =>
          by_cases same : name = key
          · simp [same]
          · simp [same, Ne.symm same]

theorem get_of_function [DecidableEq κ] (keys : List κ) (value : κ → ν) (key : κ) :
    (ofList (keys.map (fun key => (key, value key)))).get? key =
      if key ∈ keys then some (value key) else none := by
  have inserted (map : SortedMap κ ν) :
      ((keys.map (fun key => (key, value key))).foldl (fun map entry => map.insert entry.1 entry.2)
        map).get? key = if key ∈ keys then some (value key) else map.get? key := by
    induction keys generalizing map with
    | nil => rfl
    | cons head rest induction =>
        rw [List.map_cons, List.foldl_cons, induction, get_insert]
        by_cases same : key = head
        · subst same
          simp
        · simp [same]
  exact inserted empty

omit [Std.TransOrd κ] in
theorem mem_iff_lookup {entries : List (κ × ν)}
    (ascending : entries.Pairwise (fun earlier later => compare earlier.1 later.1 = .lt)) (key : κ)
    (value : ν) : (key, value) ∈ entries ↔ lookup key entries = some value := by
  induction entries with
  | nil => simp [lookup]
  | cons entry rest induction =>
      obtain ⟨other, held⟩ := entry
      obtain ⟨below, restAscending⟩ := List.pairwise_cons.mp ascending
      rw [List.mem_cons, induction restAscending, lookup]
      by_cases same : key = other
      · subst same
        have absent : lookup key rest ≠ some value := by
          intro found
          have less := below (key, value) ((induction restAscending).mpr found)
          simp at less
        simp [absent, eq_comm]
      · simp [same]

/-- A map is known by its values. -/
theorem ext_get {map other : SortedMap κ ν} (same : ∀ key, map.get? key = other.get? key) :
    map = other := by
  obtain ⟨entries, ascending⟩ := map
  obtain ⟨others, othersAscending⟩ := other
  have distinct : ∀ {list : List (κ × ν)},
      list.Pairwise (fun earlier later => compare earlier.1 later.1 = .lt) → list.Nodup := by
    intro list sorted
    refine sorted.imp ?_
    rintro earlier _ less rfl
    simp at less
  have members : ∀ entry, entry ∈ entries ↔ entry ∈ others := by
    rintro ⟨key, value⟩
    rw [mem_iff_lookup ascending, mem_iff_lookup othersAscending]
    exact iff_of_eq (congrArg (· = some value) (same key))
  have permuted :=
    (List.perm_ext_iff_of_nodup (distinct ascending) (distinct othersAscending)).mpr members
  have equal : entries = others := by
    apply List.Perm.eq_of_pairwise _ ascending othersAscending permuted
    intro first second _ _ less greater
    have loop := Std.TransCmp.lt_trans less greater
    simp at loop
  subst equal
  rfl

theorem insert_held [DecidableEq κ] {map : SortedMap κ ν} {key : κ} {value : ν}
    (held : map.get? key = some value) : map.insert key value = map := by
  apply ext_get
  intro other
  rw [get_insert]
  split
  next same => rw [same, held]
  next => rfl

/-- A change decides one key, from what was there before. -/
theorem get_change [DecidableEq κ] (map : SortedMap κ ν) (key other : κ) (default : ν)
    (update : ν → ν) :
    (map.change key default update).get? other =
      if other = key then some (update ((map.get? key).getD default)) else map.get? other :=
  get_insert map key other _

omit [Std.TransOrd κ] [Std.LawfulEqOrd κ] in
theorem lookup_below {key : κ} {entries : List (κ × ν)}
    (below : ∀ entry ∈ entries, compare key entry.1 = .lt) : lookup key entries = none := by
  induction entries with
  | nil => rfl
  | cons entry rest induction =>
      obtain ⟨other, held⟩ := entry
      have less := below (other, held) (by simp)
      simp only at less
      simp [lookup, less, induction (fun entry member => below entry (by simp [member]))]

/-- Changes at all keys of a map, one after another: each key is changed once or not at all. -/
theorem get_change_all [DecidableEq κ] {μ : Type} (changes : SortedMap κ μ) (map : SortedMap κ ν)
    (default : ν) (update : κ → μ → ν → ν) (key : κ) :
    (changes.entries.foldl (fun map entry => map.change entry.1 default (update entry.1 entry.2))
      map).get? key =
      ((changes.get? key).map (fun value => update key value ((map.get? key).getD default))).or
        (map.get? key) := by
  obtain ⟨entries, ascending⟩ := changes
  change _ = ((lookup key entries).map _).or _
  induction entries generalizing map with
  | nil => rfl
  | cons entry rest induction =>
      obtain ⟨head, value⟩ := entry
      obtain ⟨below, restAscending⟩ := List.pairwise_cons.mp ascending
      rw [List.foldl_cons, induction (map.change head default (update head value)) restAscending,
        get_change, lookup]
      by_cases same : key = head
      · -- the keys ascend, so no later change reaches the first one
        subst same
        simp [lookup_below below]
      · simp [same]

omit [Std.TransOrd κ] in
theorem get_erase [DecidableEq κ] (map : SortedMap κ ν) (key other : κ) :
    (map.erase key).get? other = if other = key then none else map.get? other := by
  change lookup other (map.entries.filter _) = if other = key then none else lookup other map.entries
  induction map.entries with
  | nil => simp [lookup]
  | cons entry rest induction =>
      obtain ⟨head, value⟩ := entry
      by_cases dropped : key = head <;> by_cases found : other = head <;>
        by_cases same : other = key <;> simp_all [lookup]

omit [Std.TransOrd κ] in
theorem find_entry [DecidableEq κ] (entries : List (κ × ν)) (key : κ) :
    (entries.find? (fun entry => entry.1 = key)).map Prod.snd = lookup key entries := by
  induction entries with
  | nil => rfl
  | cons entry rest induction =>
      obtain ⟨other, value⟩ := entry
      by_cases same : other = key
      · simp [lookup, same]
      · simp [lookup, same, Ne.symm same, induction]

omit [Std.TransOrd κ] in
theorem keys_distinct (map : SortedMap κ ν) : (map.entries.map Prod.fst).Nodup := by
  rw [List.Nodup, List.pairwise_map]
  refine map.ascending.imp ?_
  intro earlier later less same
  rw [same] at less
  simp at less

/-- A map is the map of its entries. -/
theorem of_list_entries [DecidableEq κ] (map : SortedMap κ ν) : ofList map.entries = map := by
  apply ext_get
  intro key
  rw [get_of_list map.keys_distinct, find_entry]
  rfl

theorem get_union [DecidableEq κ] (map other : SortedMap κ ν) (key : κ) :
    (map.union other).get? key = (other.get? key).or (map.get? key) := by
  unfold union
  rw [get_insert_all other.keys_distinct, find_entry]
  rfl

theorem union_self [DecidableEq κ] (map : SortedMap κ ν) : map.union map = map := by
  apply ext_get
  intro key
  rw [get_union, Option.or_self]

omit [Std.TransOrd κ] in
theorem get_map_values [DecidableEq κ] {μ : Type} (map : SortedMap κ ν) (update : κ → ν → μ) (key : κ) :
    (map.mapValues update).get? key = (map.get? key).map (update key) := by
  change lookup key (map.entries.map _) = (lookup key map.entries).map _
  induction map.entries with
  | nil => rfl
  | cons entry rest induction =>
      obtain ⟨other, value⟩ := entry
      by_cases same : key = other
      · simp [lookup, same]
      · simp [lookup, same, induction]

omit [Std.TransOrd κ] in
/-- An entry that is dropped takes the value under its key away. -/
theorem get_filter_map [DecidableEq κ] {μ : Type} (map : SortedMap κ ν) (update : κ → ν → Option μ)
    (key : κ) : (map.filterMap update).get? key = (map.get? key).bind (update key) := by
  apply Option.ext
  intro value
  change lookup key (map.filterMap update).entries = some value ↔
    (lookup key map.entries).bind (update key) = some value
  rw [← mem_iff_lookup (map.filterMap update).ascending, Option.bind_eq_some_iff]
  simp only [filterMap, List.mem_filterMap, Option.map_eq_some_iff, Prod.mk.injEq]
  constructor
  · rintro ⟨⟨other, held⟩, member, _, kept, rfl, rfl⟩
    exact ⟨held, (mem_iff_lookup map.ascending other held).mp member, kept⟩
  · rintro ⟨held, found, kept⟩
    exact ⟨(key, held), (mem_iff_lookup map.ascending key held).mpr found, value, kept, rfl, rfl⟩

omit [Std.TransOrd κ] [Std.LawfulEqOrd κ] in
@[simp] theorem keys_map_values {μ : Type} (map : SortedMap κ ν) (update : κ → ν → μ) :
    (map.mapValues update).keys = map.keys := by
  simp [mapValues, keys]

omit [Std.TransOrd κ] [Std.LawfulEqOrd κ] in
@[simp] theorem is_empty_map_values {μ : Type} (map : SortedMap κ ν) (update : κ → ν → μ) :
    (map.mapValues update).isEmpty = map.isEmpty := by
  simp [mapValues, isEmpty]

@[simp] theorem is_empty_insert (map : SortedMap κ ν) (key : κ) (value : ν) :
    (map.insert key value).isEmpty = false := by
  change (place key value map.entries).isEmpty = false
  cases map.entries with
  | nil => rfl
  | cons entry rest =>
      simp only [place]
      split <;> rfl

omit [Std.TransOrd κ] in
theorem is_empty_iff_get (map : SortedMap κ ν) :
    map.isEmpty = true ↔ ∀ key, map.get? key = none := by
  obtain ⟨entries, ascending⟩ := map
  change entries.isEmpty = true ↔ ∀ key, lookup key entries = none
  cases entries with
  | nil => simp [lookup]
  | cons entry rest =>
      simp only [List.isEmpty_cons, Bool.false_eq_true, false_iff]
      intro absent
      have present := absent entry.1
      simp [lookup] at present

omit [Std.TransOrd κ] in
theorem mem_values (map : SortedMap κ ν) (value : ν) :
    value ∈ map.values ↔ ∃ key, map.get? key = some value := by
  simp only [values, List.mem_map]
  constructor
  · rintro ⟨⟨key, held⟩, member, rfl⟩
    exact ⟨key, (mem_iff_lookup map.ascending key held).mp member⟩
  · rintro ⟨key, found⟩
    exact ⟨(key, value), (mem_iff_lookup map.ascending key value).mpr found, rfl⟩

omit [Std.TransOrd κ] in
theorem mem_keys (map : SortedMap κ ν) (key : κ) :
    key ∈ map.keys ↔ ∃ value, map.get? key = some value := by
  simp only [keys, List.mem_map]
  constructor
  · rintro ⟨⟨_, value⟩, member, rfl⟩
    exact ⟨value, (mem_iff_lookup map.ascending _ value).mp member⟩
  · rintro ⟨value, found⟩
    exact ⟨(key, value), (mem_iff_lookup map.ascending key value).mpr found, rfl⟩

theorem mem_of_list {entries : List (κ × ν)} {entry : κ × ν}
    (member : entry ∈ (ofList entries).entries) : entry ∈ entries := by
  have placed (entries : List (κ × ν)) (map : SortedMap κ ν)
      (member : entry ∈ (entries.foldl (fun map entry => map.insert entry.1 entry.2) map).entries) :
      entry ∈ entries ∨ entry ∈ map.entries := by
    induction entries generalizing map with
    | nil => exact .inr member
    | cons head rest induction =>
        rcases induction (map.insert head.1 head.2) member with later | inside
        · exact .inl (List.mem_cons_of_mem head later)
        · rcases mem_place inside with rfl | held
          · exact .inl List.mem_cons_self
          · exact .inr held
  rcases placed entries empty member with listed | none
  · exact listed
  · cases none

end PolicyLevers.SortedMap
