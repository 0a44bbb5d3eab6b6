/-!
# Maps in key order

A finite map as the list of its entries, in strictly ascending key order.  The order is part of the
type, so equal contents are equal values, and whatever walks over a map (sums, printed tables) walks
in key order.  Text keys ascend by code point, which is also the order of their UTF-8 bytes.
-/

namespace PolicyLevers

set_option autoImplicit false

/-- Entries with strictly ascending keys. -/
structure SortedMap (κ ν : Type) [Ord κ] where
  entries : List (κ × ν)
  ascending : entries.Pairwise (fun earlier later => compare earlier.1 later.1 = .lt)

abbrev NameMap (ν : Type) := SortedMap String ν

namespace SortedMap

variable {κ ν μ : Type} [Ord κ]

deriving instance DecidableEq for SortedMap

def empty : SortedMap κ ν := ⟨[], .nil⟩

instance : EmptyCollection (SortedMap κ ν) := ⟨empty⟩

instance : Inhabited (SortedMap κ ν) := ⟨empty⟩

def lookup (key : κ) : List (κ × ν) → Option ν
  | [] => none
  | (other, value) :: rest => if compare key other = .eq then some value else lookup key rest

def get? (map : SortedMap κ ν) (key : κ) : Option ν := lookup key map.entries

def contains (map : SortedMap κ ν) (key : κ) : Bool := (map.get? key).isSome

def isEmpty (map : SortedMap κ ν) : Bool := map.entries.isEmpty

def size (map : SortedMap κ ν) : Nat := map.entries.length

def keys (map : SortedMap κ ν) : List κ := map.entries.map (·.1)

def values (map : SortedMap κ ν) : List ν := map.entries.map (·.2)

/-- Puts an entry at its place in the order, in the place of an entry with the same key. -/
def place (key : κ) (value : ν) : List (κ × ν) → List (κ × ν)
  | [] => [(key, value)]
  | (other, held) :: rest =>
    match compare key other with
    | .lt => (key, value) :: (other, held) :: rest
    | .eq => (key, value) :: rest
    | .gt => (other, held) :: place key value rest

theorem mem_place {key : κ} {value : ν} {entry : κ × ν} {entries : List (κ × ν)}
    (placed : entry ∈ place key value entries) : entry = (key, value) ∨ entry ∈ entries := by
  induction entries with
  | nil => simpa [place] using placed
  | cons head rest ih =>
    obtain ⟨other, held⟩ := head
    unfold place at placed
    split at placed
    · simpa using placed
    · simp only [List.mem_cons] at placed ⊢
      rcases placed with same | inside
      · exact Or.inl same
      · exact Or.inr (Or.inr inside)
    · simp only [List.mem_cons] at placed ⊢
      rcases placed with same | inside
      · exact Or.inr (Or.inl same)
      · exact (ih inside).imp id Or.inr

theorem place_ascending [Std.TransOrd κ] [Std.LawfulEqOrd κ] (key : κ) (value : ν)
    {entries : List (κ × ν)}
    (ascending : entries.Pairwise (fun earlier later => compare earlier.1 later.1 = .lt)) :
    (place key value entries).Pairwise (fun earlier later => compare earlier.1 later.1 = .lt) := by
  induction entries with
  | nil => simp [place]
  | cons head rest ih =>
    obtain ⟨other, held⟩ := head
    obtain ⟨below, restAscending⟩ := List.pairwise_cons.mp ascending
    unfold place
    split
    next less =>
      refine List.pairwise_cons.mpr ⟨fun entry inside => ?_, ascending⟩
      rcases List.mem_cons.mp inside with same | deeper
      · subst same; exact less
      · exact Std.TransCmp.lt_trans less (below entry deeper)
    next same =>
      have keysEqual : key = other := Std.LawfulEqOrd.eq_of_compare same
      subst keysEqual
      exact List.pairwise_cons.mpr ⟨below, restAscending⟩
    next greater =>
      refine List.pairwise_cons.mpr ⟨fun entry inside => ?_, ih restAscending⟩
      rcases mem_place inside with same | deeper
      · subst same; exact Std.OrientedCmp.lt_of_gt greater
      · exact below entry deeper

def insert [Std.TransOrd κ] [Std.LawfulEqOrd κ] (map : SortedMap κ ν) (key : κ) (value : ν) :
    SortedMap κ ν :=
  ⟨place key value map.entries, place_ascending key value map.ascending⟩

def erase (map : SortedMap κ ν) (key : κ) : SortedMap κ ν :=
  ⟨map.entries.filter (fun entry => compare key entry.1 ≠ .eq), map.ascending.filter _⟩

/-- The value under `key` after `change`, where an absent value counts as `default`. -/
def change [Std.TransOrd κ] [Std.LawfulEqOrd κ] (map : SortedMap κ ν) (key : κ) (default : ν)
    (update : ν → ν) : SortedMap κ ν :=
  map.insert key (update ((map.get? key).getD default))

def mapValues (map : SortedMap κ ν) (update : κ → ν → μ) : SortedMap κ μ :=
  ⟨map.entries.map (fun entry => (entry.1, update entry.1 entry.2)), by
    simpa [List.pairwise_map] using map.ascending⟩

def filterMap (map : SortedMap κ ν) (update : κ → ν → Option μ) : SortedMap κ μ :=
  ⟨map.entries.filterMap (fun entry => (update entry.1 entry.2).map (fun value => (entry.1, value))), by
    refine map.ascending.filterMap _ ?_
    intro earlier later below first firstKept second secondKept
    simp only [Option.map_eq_some_iff] at firstKept secondKept
    obtain ⟨_, _, rfl⟩ := firstKept
    obtain ⟨_, _, rfl⟩ := secondKept
    exact below⟩

/-- Both maps together; where both have a key, the second wins. -/
def union [Std.TransOrd κ] [Std.LawfulEqOrd κ] (map other : SortedMap κ ν) : SortedMap κ ν :=
  other.entries.foldl (fun merged entry => merged.insert entry.1 entry.2) map

/-- The map of a list of entries; a later entry replaces an earlier one with the same key. -/
def ofList [Std.TransOrd κ] [Std.LawfulEqOrd κ] (entries : List (κ × ν)) : SortedMap κ ν :=
  entries.foldl (fun map entry => map.insert entry.1 entry.2) empty

end SortedMap

end PolicyLevers
