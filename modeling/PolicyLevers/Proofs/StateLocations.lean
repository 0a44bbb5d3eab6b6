import PolicyLevers.Proofs.StatePaths

/-!
# Reading after writing

A location is a section and the names that lead from it to a number.  A path that can be written leads to
one: the number is read back there, a region that it replaces loses its attributes, and every other
location keeps what it had.  Texts lead to the same location when they have the same names, where a
text without a period has the section of local variables in front.
-/

namespace PolicyLevers

set_option autoImplicit false

/-- A section and the names that lead from it to a number. -/
structure Location where
  area : Section
  first : String
  rest : List String
  deriving DecidableEq

/-- The first location is an attribute of the region whose entry the second one is. -/
def Location.isAttributeOf : Location → Location → Bool
  | ⟨.ledger, region, [_]⟩, ⟨.ledger, name, []⟩ => region = name
  | _, _ => false

theorem Location.attribute_of_iff {inner outer : Location} :
    inner.isAttributeOf outer = true ↔
      ∃ region name, outer = ⟨.ledger, region, []⟩ ∧ inner = ⟨.ledger, region, [name]⟩ := by
  constructor
  · intro inside
    unfold isAttributeOf at inside
    split at inside
    next region name whole =>
        obtain rfl : region = whole := by simpa using inside
        exact ⟨region, name, rfl, rfl⟩
    · cases inside
  · rintro ⟨region, name, rfl, rfl⟩
    simp [isAttributeOf]

def Path.location? (path : Path) : Option Location :=
  path.area.map (fun area => ⟨area, path.first, path.rest⟩)

def Section.name : Section → String
  | .locals => "local"
  | .ledger => "out"
  | .inputs => "in"
  | .context => "meta"

def Location.names (location : Location) : List String :=
  location.area.name :: location.first :: location.rest

/-- The names between the periods of a text; a text without a period is a local variable. -/
def Path.names (text : String) : List String :=
  match Text.splitAt '.' text.toList with
  | (_, []) => ["local", text]
  | (head, more) => String.ofList head :: more.map String.ofList

theorem section_named_iff {name : String} {area : Section} :
    Section.ofName? name = some area ↔ name = area.name := by
  constructor
  · intro found
    unfold Section.ofName? at found
    split at found <;> cases found <;> rfl
  · rintro rfl
    cases area <;> rfl

/-- A text leads to a location exactly if it has the names of the location. -/
theorem Path.location_parse_iff {text : String} {location : Location} :
    (Path.parse text).location? = some location ↔ Path.names text = location.names := by
  obtain ⟨area, first, rest⟩ := location
  unfold Path.parse Path.names Path.location? Location.names
  cases Text.splitAt '.' text.toList with
  | mk head more =>
      cases more with
      | nil => cases area <;> simp [Section.name]
      | cons next further =>
          simp only [Option.map_eq_some_iff, section_named_iff, Location.mk.injEq, List.map_cons,
            List.cons.injEq]
          constructor
          · rintro ⟨_, named, rfl, same⟩
            exact ⟨named, same⟩
          · rintro ⟨named, same⟩
            exact ⟨area, named, rfl, same⟩

theorem Path.names_bare {name : String} (bare : '.' ∉ name.toList) :
    Path.names ("local." ++ name) = Path.names name := by
  have whole : ∀ text : List Char, '.' ∉ text → Text.splitAt '.' text = (text, []) := by
    intro text free
    induction text with
    | nil => rfl
    | cons c rest induction =>
        simp only [List.mem_cons, not_or] at free
        simp [Text.splitAt, induction free.2, Ne.symm free.1]
  simp [Path.names, Text.splitAt, whole name.toList bare]

def LedgerEntry.number? : LedgerEntry → Option Float
  | .number value => some value
  | .region _ => none

namespace State

/-- The names of a section without substructure; the ledger is none. -/
def namesOf (state : State) : Section → NameMap Float
  | .locals => state.locals
  | .inputs => state.inputs
  | .context => state.context
  | .ledger => ∅

def withNames (state : State) : Section → NameMap Float → State
  | .locals, names => { state with locals := names }
  | .inputs, names => { state with inputs := names }
  | .context, names => { state with context := names }
  | .ledger, _ => state

def numberAt? (state : State) (location : Location) : Option Float :=
  match location.area, location.rest with
  | .ledger, [] => (state.ledger.get? location.first).bind LedgerEntry.number?
  | .ledger, [name] => (state.region? location.first).bind (·.get? name)
  | area, [] => (state.namesOf area).get? location.first
  | _, _ => none

/-! ## Reading -/

theorem number_at_ledger_iff {state : State} {path : Path} {value : Float} :
    getLedger state.ledger path = .ok value ↔
      state.numberAt? ⟨.ledger, path.first, path.rest⟩ = some value := by
  rw [get_ledger_ok_iff]
  unfold numberAt? region?
  cases entry : state.ledger.get? path.first with
  | none => rcases path.rest with _ | ⟨_, _ | ⟨_, _⟩⟩ <;> simp
  | some held =>
      cases held <;> rcases path.rest with _ | ⟨_, _ | ⟨_, _⟩⟩ <;>
        simp [LedgerEntry.number?, LedgerEntry.attributes?]

theorem get_ok_iff {state : State} {path : Path} {value : Float} :
    state.get path = .ok value ↔
      ∃ location, path.location? = some location ∧ state.numberAt? location = some value := by
  unfold get Path.location?
  cases area : path.area with
  | none => simp
  | some part =>
      cases part with
      | ledger => simpa using number_at_ledger_iff
      | _ =>
          simp only [get_flat_ok_iff, Option.map_some, Option.some.injEq, exists_eq_left', numberAt?]
          cases path.rest <;> simp [namesOf]

/-! ## Writing -/

theorem set_flat_ok_iff {names written : NameMap Float} {path : Path} {value : Float} :
    setFlat names path value = .ok written ↔
      path.rest = [] ∧ written = names.insert path.first value := by
  unfold setFlat
  cases path.rest with
  | nil => simp [eq_comm]
  | cons next further =>
      by_cases present : names.contains path.first = true <;> simp [present]

theorem set_ledger_ok_iff {ledger written : NameMap LedgerEntry} {path : Path} {value : Float} :
    setLedger ledger path value = .ok written ↔
      (path.rest = [] ∧ written = ledger.insert path.first (.number value)) ∨
        ∃ name attributes, path.rest = [name] ∧
          ledger.get? path.first = some (.region attributes) ∧
          written = ledger.insert path.first (.region (attributes.insert name value)) := by
  unfold setLedger
  cases path.rest with
  | nil => simp [eq_comm]
  | cons name further =>
      cases entry : ledger.get? path.first with
      | none => simp
      | some held =>
          cases held with
          | number number => simp
          | region attributes =>
              cases further with
              | nil => simp [eq_comm]
              | cons next rest =>
                  by_cases present : attributes.contains name = true <;> simp [present]

/-- What stands at each location after a number was put at one. -/
def WrittenAt (before after : State) (location : Location) (value : Float) : Prop :=
  after.inspected = before.inspected ∧
    ∀ other, after.numberAt? other =
      if other = location then some value
      else if other.isAttributeOf location then none
      else before.numberAt? other

theorem written_name (state : State) {area : Section} (flat : area ≠ .ledger) (name : String)
    (value : Float) :
    WrittenAt state (state.withNames area ((state.namesOf area).insert name value))
      ⟨area, name, []⟩ value := by
  constructor
  · cases area <;> rfl
  · rintro ⟨otherArea, first, rest⟩
    cases area <;> cases otherArea <;> rcases rest with _ | ⟨_, _ | ⟨_, _⟩⟩ <;>
      simp_all [numberAt?, withNames, namesOf, Location.isAttributeOf, SortedMap.get_insert, region?]

/-- A number in the place of a whole entry takes the attributes of a region away. -/
theorem written_entry (state : State) (name : String) (value : Float) :
    WrittenAt state { state with ledger := state.ledger.insert name (.number value) }
      ⟨.ledger, name, []⟩ value := by
  refine ⟨rfl, ?_⟩
  rintro ⟨area, first, rest⟩
  cases area <;> rcases rest with _ | ⟨_, _ | ⟨_, _⟩⟩ <;>
    by_cases same : first = name <;>
      simp [numberAt?, namesOf, Location.isAttributeOf, SortedMap.get_insert, region?, same,
        LedgerEntry.number?, LedgerEntry.attributes?]

theorem written_attribute (state : State) {region : String} {attributes : Attributes}
    (present : state.ledger.get? region = some (.region attributes)) (name : String) (value : Float) :
    WrittenAt state
      { state with ledger := state.ledger.insert region (.region (attributes.insert name value)) }
      ⟨.ledger, region, [name]⟩ value := by
  refine ⟨rfl, ?_⟩
  rintro ⟨area, first, rest⟩
  cases area <;> rcases rest with _ | ⟨_, _ | ⟨_, _⟩⟩ <;>
    by_cases same : first = region <;>
      simp [numberAt?, namesOf, Location.isAttributeOf, SortedMap.get_insert, region?, same, present,
        LedgerEntry.number?, LedgerEntry.attributes?]

theorem set_flat_area {state : State} {path : Path} {area : Section} (value : Float)
    (leads : path.area = some area) (flat : area ≠ .ledger) :
    state.set path value = (setFlat (state.namesOf area) path value).map (state.withNames area) := by
  unfold set
  rw [leads]
  cases area with
  | ledger => exact absurd rfl flat
  | _ => rfl

/-- A path that can be written leads to a location, and the number stands there afterwards. -/
theorem set_written {state written : State} {path : Path} {value : Float}
    (stored : state.set path value = .ok written) :
    ∃ location, path.location? = some location ∧ WrittenAt state written location value := by
  unfold Path.location?
  cases area : path.area with
  | none => simp [set, area] at stored
  | some part =>
      refine ⟨_, rfl, ?_⟩
      by_cases flat : part = .ledger
      · subst flat
        simp only [set, area] at stored
        cases inner : setLedger state.ledger path value with
        | error error => simp [inner, Except.map] at stored
        | ok ledger =>
            obtain rfl : { state with ledger := ledger } = written := by
              simpa [inner, Except.map] using stored
            rcases set_ledger_ok_iff.mp inner with ⟨bare, rfl⟩ | ⟨name, attributes, one, here, rfl⟩
            · rw [bare]
              exact written_entry state path.first value
            · rw [one]
              exact written_attribute state here name value
      · rw [set_flat_area value area flat] at stored
        cases inner : setFlat (state.namesOf part) path value with
        | error error => simp [inner, Except.map] at stored
        | ok names =>
            obtain rfl : state.withNames part names = written := by
              simpa [inner, Except.map] using stored
            obtain ⟨bare, rfl⟩ := set_flat_ok_iff.mp inner
            rw [bare]
            exact written_name state flat path.first value

/-- What is read at a text after a write at another one.  The same location has the written number, an
attribute of a region that was replaced is lost, and everything else is read as before. -/
theorem reads_after_a_write (state written : State) (target : String) (value : Float)
    (stored : state.set (.parse target) value = .ok written) :
    (∀ name : String, '.' ∉ name.toList → Path.names ("local." ++ name) = Path.names name) ∧
    written.inspected = state.inspected ∧
    ∀ source : String,
      (Path.names source = Path.names target → written.get (.parse source) = .ok value) ∧
      (∀ region name, Path.names target = ["out", region] →
        Path.names source = ["out", region, name] →
        ∃ error, written.get (.parse source) = .error error) ∧
      (Path.names source ≠ Path.names target →
        (∀ region name, Path.names target = ["out", region] →
          Path.names source ≠ ["out", region, name]) →
        ∀ number, written.get (.parse source) = .ok number ↔
          state.get (.parse source) = .ok number) := by
  obtain ⟨location, leads, inspected, numbers⟩ := set_written stored
  have targetNames := Path.location_parse_iff.mp leads
  refine ⟨fun name bare => Path.names_bare bare, inspected, fun source => ⟨?_, ?_, ?_⟩⟩
  · intro same
    have found := Path.location_parse_iff.mpr (same.trans targetNames)
    exact get_ok_iff.mpr ⟨location, found, by rw [numbers, if_pos rfl]⟩
  · intro region name whole part
    have entry : location = ⟨.ledger, region, []⟩ :=
      Option.some.inj (leads.symm.trans (Path.location_parse_iff.mpr whole))
    cases read : written.get (.parse source) with
    | error error => exact ⟨error, rfl⟩
    | ok number =>
        obtain ⟨other, found, held⟩ := get_ok_iff.mp read
        have inside : other = ⟨.ledger, region, [name]⟩ :=
          Option.some.inj (found.symm.trans (Path.location_parse_iff.mpr part))
        rw [numbers, entry, inside] at held
        simp [Location.isAttributeOf] at held
  · intro different outside number
    have unchanged : ∀ other, (Path.parse source).location? = some other →
        written.numberAt? other = state.numberAt? other := by
      intro other found
      have sourceNames := Path.location_parse_iff.mp found
      rw [numbers, if_neg, if_neg]
      · intro inside
        obtain ⟨region, name, rfl, rfl⟩ := Location.attribute_of_iff.mp inside
        exact outside region name targetNames sourceNames
      · rintro rfl
        exact different (sourceNames.trans targetNames.symm)
    rw [get_ok_iff, get_ok_iff]
    constructor
    · rintro ⟨other, found, held⟩
      exact ⟨other, found, by rw [← unchanged other found, held]⟩
    · rintro ⟨other, found, held⟩
      exact ⟨other, found, by rw [unchanged other found, held]⟩

def regionState : State :=
  { State.empty.setRegion "china" (.ofList [("x", 1.0)]) with locals := .ofList [("a", 2.0)] }

theorem replaced_region_is_read :
    ∃ written, regionState.set (.parse "out.china") 3.0 = .ok written ∧
      written.inspected = [] ∧ written.get (.parse "out.china") = .ok 3.0 ∧
      regionState.get (.parse "out.china.x") = .ok 1.0 ∧
      (∃ error, written.get (.parse "out.china.x") = .error error) ∧
      written.get (.parse "a") = .ok 2.0 ∧ written.get (.parse "local.a") = .ok 2.0 := by
  obtain ⟨written, stored⟩ :
      ∃ written, regionState.set (.parse "out.china") 3.0 = .ok written := ⟨_, rfl⟩
  obtain ⟨anyName, inspected, reads⟩ := reads_after_a_write regionState written "out.china" 3.0 stored
  have elsewhere : ∀ source, Path.names source = ["local", "a"] → ∀ number,
      written.get (.parse source) = .ok number ↔ regionState.get (.parse source) = .ok number := by
    intro source names
    apply (reads source).2.2
    · rw [names]
      decide +kernel
    · intro region name _
      rw [names]
      simp
  exact ⟨written, stored, inspected, (reads "out.china").1 rfl, rfl,
    (reads "out.china.x").2.1 "china" "x" rfl rfl,
    (elsewhere "a" rfl 2.0).mpr rfl, (elsewhere "local.a" (anyName "a" (by decide)) 2.0).mpr rfl⟩

end State

end PolicyLevers
