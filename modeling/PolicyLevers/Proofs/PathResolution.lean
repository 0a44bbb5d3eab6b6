import PolicyLevers.Proofs.StateLocations

/-!
# Where a path breaks off

The state is a tree: sections under the root, names and ledger entries under the sections, attributes
under a region.  Reading walks down this tree one segment at a time, and so does writing, which only
has to enter the place that the last segment is put in.  Both walks break off at the same segment, so
their errors agree, and what either error names can be told from the tree alone.
-/

namespace PolicyLevers

set_option autoImplicit false

inductive Place where
  | root (state : State)
  | names (numbers : NameMap Float)
  | ledger (entries : NameMap LedgerEntry)
  | region (attributes : Attributes)
  | number (value : Float)

def LedgerEntry.place : LedgerEntry → Place
  | .number value => .number value
  | .region attributes => .region attributes

namespace State

def sectionPlace (state : State) : Section → Place
  | .ledger => .ledger state.ledger
  | area => .names (state.namesOf area)

theorem section_place_flat (state : State) {area : Section} (flat : area ≠ .ledger) :
    state.sectionPlace area = .names (state.namesOf area) := by
  cases area with
  | ledger => exact absurd rfl flat
  | _ => rfl

end State

namespace Place

/-- What stands under a name inside a place.  A number has nothing inside. -/
def child? : Place → String → Option Place
  | .root state, name => (Section.ofName? name).map state.sectionPlace
  | .names numbers, name => (numbers.get? name).map .number
  | .ledger entries, name => (entries.get? name).map LedgerEntry.place
  | .region attributes, name => (attributes.get? name).map .number
  | .number _, _ => none

/-- What stands at the end of a row of names, each inside what the one before it leads to. -/
def at? (place : Place) (names : List String) : Option Place := names.foldlM child? place

theorem at_nil (place : Place) : place.at? [] = some place := rfl

theorem at_cons (place : Place) (name : String) (names : List String) :
    place.at? (name :: names) = (place.child? name).bind (·.at? names) := List.foldlM_cons

theorem at_singleton (place : Place) (name : String) : place.at? [name] = place.child? name := by
  rw [at_cons]
  cases place.child? name <;> rfl

theorem at_cons_of_child {place inner : Place} {name : String} (inside : place.child? name = some inner)
    (names : List String) : place.at? (name :: names) = inner.at? names := by
  rw [at_cons, inside, Option.bind_some]

/-- The row of names breaks off at a segment: what comes before it stands, and it does not. -/
structure BreaksOff (place : Place) (names before : List String) (segment : String)
    (after : List String) : Prop where
  whole : names = before ++ segment :: after
  stands : ∃ reached, place.at? before = some reached
  missing : place.at? (before ++ [segment]) = none

theorem breaks_off_at_once {place : Place} {name : String} (missing : place.child? name = none)
    (more : List String) : place.BreaksOff (name :: more) [] name more :=
  ⟨rfl, ⟨place, rfl⟩, by simpa [at_singleton] using missing⟩

theorem breaks_off_below {place inner : Place} {name : String} {more before after : List String}
    {segment : String} (inside : place.child? name = some inner) :
    place.BreaksOff (name :: more) (name :: before) segment after ↔
      inner.BreaksOff more before segment after := by
  constructor
  · rintro ⟨whole, stands, missing⟩
    rw [at_cons_of_child inside] at stands
    rw [List.cons_append, at_cons_of_child inside] at missing
    exact ⟨List.tail_eq_of_cons_eq whole, stands, missing⟩
  · rintro ⟨rfl, stands, missing⟩
    refine ⟨rfl, ?_, ?_⟩
    · rwa [at_cons_of_child inside]
    · rwa [List.cons_append, at_cons_of_child inside]

/-- A row whose first name stands breaks off further down. -/
theorem breaks_off_iff_below {place inner : Place} {name : String} {more before after : List String}
    {segment : String} (inside : place.child? name = some inner) :
    place.BreaksOff (name :: more) before segment after ↔
      ∃ further, before = name :: further ∧ inner.BreaksOff more further segment after := by
  cases before with
  | nil =>
      constructor
      · rintro ⟨whole, _, missing⟩
        obtain ⟨rfl, rfl⟩ := List.cons.inj whole
        rw [List.nil_append, at_singleton, inside] at missing
        cases missing
      · rintro ⟨_, impossible, _⟩
        cases impossible
  | cons first further =>
      constructor
      · intro broken
        obtain rfl : name = first := (List.cons.inj broken.whole).1
        exact ⟨further, rfl, (breaks_off_below inside).mp broken⟩
      · rintro ⟨_, same, broken⟩
        obtain ⟨rfl, rfl⟩ := List.cons.inj same
        exact (breaks_off_below inside).mpr broken

/-- A row whose first name is missing breaks off there and nowhere else. -/
theorem breaks_off_iff_at_once {place : Place} {name : String} {more before after : List String}
    {segment : String} (missing : place.child? name = none) :
    place.BreaksOff (name :: more) before segment after ↔
      before = [] ∧ segment = name ∧ after = more := by
  constructor
  · rintro ⟨whole, ⟨reached, stands⟩, _⟩
    cases before with
    | nil =>
        obtain ⟨rfl, rfl⟩ := List.cons.inj whole
        exact ⟨rfl, rfl, rfl⟩
    | cons first further =>
        obtain rfl : name = first := (List.cons.inj whole).1
        rw [at_cons, missing] at stands
        cases stands
  · rintro ⟨rfl, rfl, rfl⟩
    exact breaks_off_at_once missing _

/-! ## Walking down -/

/-- What a row of names leads to, or the failure to resolve the segment where it breaks off. -/
def walk (text : String) (place : Place) (names : List String) : Except RuntimeError Place :=
  names.foldlM (fun inside name => (inside.child? name).elim (.error (.notFound name text)) .ok) place

theorem walk_missing {place : Place} {name : String} (text : String) (missing : place.child? name = none)
    (more : List String) : place.walk text (name :: more) = .error (.notFound name text) := by
  unfold walk
  rw [List.foldlM_cons, missing]
  rfl

theorem walk_inside {place inner : Place} {name : String} (text : String)
    (inside : place.child? name = some inner) (more : List String) :
    place.walk text (name :: more) = inner.walk text more := by
  unfold walk
  rw [List.foldlM_cons, inside]
  rfl

theorem walk_append (place : Place) (text : String) (names more : List String) :
    place.walk text (names ++ more) = place.walk text names >>= (·.walk text more) :=
  List.foldlM_append

theorem walk_ok_iff (text : String) {reached : Place} (names : List String) (place : Place) :
    place.walk text names = .ok reached ↔ place.at? names = some reached := by
  induction names generalizing place with
  | nil => simp [walk, at_nil, Pure.pure, Except.pure]
  | cons name more induction =>
      cases inside : place.child? name with
      | none => simp [walk_missing text inside, at_cons, inside]
      | some inner => rw [walk_inside text inside, at_cons_of_child inside, induction]

theorem walk_error_iff {text : String} {error : RuntimeError} (names : List String) (place : Place) :
    place.walk text names = .error error ↔
      ∃ before segment after, place.BreaksOff names before segment after ∧
        error = .notFound segment text := by
  induction names generalizing place with
  | nil =>
      have whole : ∀ before segment after, ¬place.BreaksOff [] before segment after :=
        fun before _ _ broken => by simpa using broken.whole
      simp [walk, whole, Pure.pure, Except.pure]
  | cons name more induction =>
      cases inside : place.child? name with
      | none =>
          rw [walk_missing text inside]
          simp only [breaks_off_iff_at_once inside, Except.error.injEq]
          constructor
          · rintro rfl
            exact ⟨[], name, more, ⟨rfl, rfl, rfl⟩, rfl⟩
          · rintro ⟨_, _, _, ⟨_, rfl, _⟩, rfl⟩
            rfl
      | some inner =>
          rw [walk_inside text inside, induction]
          simp only [breaks_off_iff_below inside]
          constructor
          · rintro ⟨before, segment, after, broken, same⟩
            exact ⟨name :: before, segment, after, ⟨before, rfl, broken⟩, same⟩
          · rintro ⟨_, segment, after, ⟨before, _, broken⟩, same⟩
            exact ⟨before, segment, after, broken, same⟩

def read (text : String) : Place → Except RuntimeError Float
  | .number value => .ok value
  | _ => .error (.notANumber text)

def accept (text name : String) : Place → Except RuntimeError Unit
  | .number _ => .error (.notFound name text)
  | _ => .ok ()

/-- Writing walks down all names but the last, which is put in what they lead to. -/
def enter (text : String) (place : Place) : List String → Except RuntimeError Unit
  | [] => .ok ()
  | [name] => place.accept text name
  | name :: next :: more =>
    (place.child? name).elim (.error (.notFound name text)) (·.enter text (next :: more))

theorem enter_missing {place : Place} {name : String} (text : String) (missing : place.child? name = none)
    (next : String) (more : List String) :
    place.enter text (name :: next :: more) = .error (.notFound name text) := by
  rw [enter, missing, Option.elim_none]

theorem enter_inside {place inner : Place} {name : String} (text : String)
    (inside : place.child? name = some inner) (next : String) (more : List String) :
    place.enter text (name :: next :: more) = inner.enter text (next :: more) := by
  rw [enter, inside, Option.elim_some]

theorem enter_number (value : Float) (text name : String) (more : List String) :
    (Place.number value).enter text (name :: more) = .error (.notFound name text) := by
  cases more with
  | nil => rfl
  | cons next further => exact enter_missing text rfl next further

theorem enter_concat (text last : String) (leading : List String) (place : Place) :
    place.enter text (leading ++ [last]) = place.walk text leading >>= accept text last := by
  induction leading generalizing place with
  | nil => rfl
  | cons name more induction =>
      obtain ⟨next, further, split⟩ : ∃ next further, more ++ [last] = next :: further := by
        cases more <;> exact ⟨_, _, rfl⟩
      rw [List.cons_append, split]
      cases inside : place.child? name with
      | none =>
          rw [enter_missing text inside, walk_missing text inside]
          rfl
      | some inner => rw [enter_inside text inside, walk_inside text inside, ← split, induction]

end Place

/-! ## Reading and writing as walks -/

/-- The parts of a parsed path and the names between the periods of its text. -/
theorem Path.parse_names (text : String) :
    ∃ head, Path.names text = head :: (Path.parse text).first :: (Path.parse text).rest ∧
      Section.ofName? head = (Path.parse text).area ∧ (Path.parse text).text = text ∧
      ((Path.parse text).area = none → head = (Path.parse text).head) := by
  unfold Path.parse Path.names
  cases Text.splitAt '.' text.toList with
  | mk head more =>
      cases more with
      | nil => exact ⟨"local", rfl, rfl, rfl, nofun⟩
      | cons first rest => exact ⟨String.ofList head, rfl, rfl, rfl, fun _ => rfl⟩

namespace State

def at? (state : State) (names : List String) : Option Place := (Place.root state).at? names

theorem get_flat_is_walk (names : NameMap Float) (path : Path) :
    getFlat names path =
      (Place.names names).walk path.text (path.first :: path.rest) >>= Place.read path.text := by
  unfold getFlat
  cases present : names.get? path.first with
  | none =>
      have missing : (Place.names names).child? path.first = none := by simp [Place.child?, present]
      rw [Place.walk_missing _ missing]
      rfl
  | some value =>
      have inside : (Place.names names).child? path.first = some (.number value) := by
        simp [Place.child?, present]
      rw [Place.walk_inside _ inside]
      cases path.rest with
      | nil => rfl
      | cons next further =>
          rw [Place.walk_missing _ rfl]
          rfl

theorem get_ledger_is_walk (ledger : NameMap LedgerEntry) (path : Path) :
    getLedger ledger path =
      (Place.ledger ledger).walk path.text (path.first :: path.rest) >>= Place.read path.text := by
  unfold getLedger
  cases present : ledger.get? path.first with
  | none =>
      have missing : (Place.ledger ledger).child? path.first = none := by simp [Place.child?, present]
      rw [Place.walk_missing _ missing]
      rfl
  | some entry =>
      have inside : (Place.ledger ledger).child? path.first = some entry.place := by
        simp [Place.child?, present]
      rw [Place.walk_inside _ inside]
      cases entry with
      | number value =>
          cases path.rest with
          | nil => rfl
          | cons next further =>
              rw [LedgerEntry.place, Place.walk_missing _ rfl]
              rfl
      | region attributes =>
          cases path.rest with
          | nil => rfl
          | cons name further =>
              cases held : attributes.get? name with
              | none =>
                  have missing : (Place.region attributes).child? name = none := by
                    simp [Place.child?, held]
                  rw [LedgerEntry.place, Place.walk_missing _ missing]
                  simp only [held]
                  rfl
              | some value =>
                  have below : (Place.region attributes).child? name = some (.number value) := by
                    simp [Place.child?, held]
                  rw [LedgerEntry.place, Place.walk_inside _ below]
                  simp only [held]
                  cases further with
                  | nil => rfl
                  | cons next rest =>
                      rw [Place.walk_missing _ rfl]
                      rfl

/-- Reading walks down all segments and takes the number at their end. -/
theorem get_is_walk (state : State) (text : String) :
    state.get (.parse text) = (Place.root state).walk text (Path.names text) >>= Place.read text := by
  obtain ⟨head, names, area, whole, unknown⟩ := Path.parse_names text
  rw [names]
  unfold get
  cases leads : (Path.parse text).area with
  | none =>
      have missing : (Place.root state).child? head = none := by simp [Place.child?, area, leads]
      rw [Place.walk_missing text missing, unknown leads]
      simp [Path.notFound, whole, bind, Except.bind]
  | some part =>
      have inside : (Place.root state).child? head = some (state.sectionPlace part) := by
        simp [Place.child?, area, leads]
      rw [Place.walk_inside text inside]
      cases part with
      | ledger => simpa [whole] using! get_ledger_is_walk state.ledger (Path.parse text)
      | _ => simpa [whole] using! get_flat_is_walk _ (Path.parse text)

theorem set_flat_refused (names : NameMap Float) (path : Path) (value : Float) :
    (setFlat names path value).map (fun _ => ()) =
      (Place.names names).enter path.text (path.first :: path.rest) := by
  unfold setFlat
  cases path.rest with
  | nil => rfl
  | cons next further =>
      cases present : names.get? path.first with
      | none =>
          have missing : (Place.names names).child? path.first = none := by
            simp [Place.child?, present]
          rw [Place.enter_missing _ missing]
          simp [SortedMap.contains, present, Path.notFound, Except.map]
      | some held =>
          have inside : (Place.names names).child? path.first = some (.number held) := by
            simp [Place.child?, present]
          rw [Place.enter_inside _ inside, Place.enter_number]
          simp [SortedMap.contains, present, Path.notFound, Except.map]

theorem set_ledger_refused (ledger : NameMap LedgerEntry) (path : Path) (value : Float) :
    (setLedger ledger path value).map (fun _ => ()) =
      (Place.ledger ledger).enter path.text (path.first :: path.rest) := by
  unfold setLedger
  cases path.rest with
  | nil => rfl
  | cons name further =>
      cases present : ledger.get? path.first with
      | none =>
          have missing : (Place.ledger ledger).child? path.first = none := by
            simp [Place.child?, present]
          rw [Place.enter_missing _ missing]
          rfl
      | some entry =>
          have inside : (Place.ledger ledger).child? path.first = some entry.place := by
            simp [Place.child?, present]
          rw [Place.enter_inside _ inside]
          cases entry with
          | number held =>
              rw [LedgerEntry.place, Place.enter_number]
              rfl
          | region attributes =>
              rw [LedgerEntry.place]
              cases further with
              | nil => rfl
              | cons next rest =>
                  cases held : attributes.get? name with
                  | none =>
                      have missing : (Place.region attributes).child? name = none := by
                        simp [Place.child?, held]
                      rw [Place.enter_missing _ missing]
                      simp [SortedMap.contains, held, Path.notFound, Except.map]
                  | some number =>
                      have below : (Place.region attributes).child? name = some (.number number) := by
                        simp [Place.child?, held]
                      rw [Place.enter_inside _ below, Place.enter_number]
                      simp [SortedMap.contains, held, Path.notFound, Except.map]

/-- Writing is refused where the walk to what takes the last segment in fails. -/
theorem set_is_walk (state : State) (text : String) (value : Float) :
    (state.set (.parse text) value).map (fun _ => ()) =
      (Place.root state).enter text (Path.names text) := by
  obtain ⟨head, names, area, whole, unknown⟩ := Path.parse_names text
  rw [names]
  cases leads : (Path.parse text).area with
  | none =>
      have missing : (Place.root state).child? head = none := by simp [Place.child?, area, leads]
      rw [Place.enter_missing text missing, unknown leads]
      simp [set, leads, Path.notFound, whole, Except.map]
  | some part =>
      have inside : (Place.root state).child? head = some (state.sectionPlace part) := by
        simp [Place.child?, area, leads]
      rw [Place.enter_inside text inside]
      by_cases flat : part = .ledger
      · subst flat
        have entered := set_ledger_refused state.ledger (Path.parse text) value
        rw [whole] at entered
        rw [sectionPlace, ← entered]
        simp only [set, leads]
        cases setLedger state.ledger (Path.parse text) value <;> rfl
      · have entered := set_flat_refused (state.namesOf part) (Path.parse text) value
        rw [whole] at entered
        rw [section_place_flat state flat, ← entered, set_flat_area value leads flat]
        cases setFlat (state.namesOf part) (Path.parse text) value <;> rfl

/-! ## What stands at a row of names -/

theorem at_unknown {state : State} {head : String} (unknown : Section.ofName? head = none)
    (names : List String) : state.at? (head :: names) = none := by
  simp [at?, Place.at_cons, Place.child?, unknown]

theorem at_section {state : State} {head : String} {area : Section}
    (named : Section.ofName? head = some area) (names : List String) :
    state.at? (head :: names) = (state.sectionPlace area).at? names :=
  Place.at_cons_of_child (by simp [Place.child?, named]) names

theorem at_innermost {place reached : Place} {name : String} {more : List String}
    (innermost : ∀ name inner, place.child? name = some inner → ∃ value, inner = .number value)
    (stands : place.at? (name :: more) = some reached) : ∃ value, reached = .number value := by
  cases inside : place.child? name with
  | none =>
      rw [Place.at_cons, inside] at stands
      cases stands
  | some inner =>
      obtain ⟨value, rfl⟩ := innermost name inner inside
      rw [Place.at_cons_of_child inside] at stands
      cases more with
      | nil => exact ⟨value, (Option.some.inj stands).symm⟩
      | cons next further => cases stands

theorem names_innermost (numbers : NameMap Float) (name : String) (inner : Place)
    (inside : (Place.names numbers).child? name = some inner) : ∃ value, inner = .number value := by
  obtain ⟨value, _, rfl⟩ := Option.map_eq_some_iff.mp inside
  exact ⟨value, rfl⟩

theorem region_innermost (attributes : Attributes) (name : String) (inner : Place)
    (inside : (Place.region attributes).child? name = some inner) : ∃ value, inner = .number value := by
  obtain ⟨value, _, rfl⟩ := Option.map_eq_some_iff.mp inside
  exact ⟨value, rfl⟩

/-- Below the sections, only the regions of the ledger are no numbers. -/
theorem at_no_number_iff {state : State} {head first : String} {rest : List String} :
    (∃ reached, state.at? (head :: first :: rest) = some reached ∧ ∀ value, reached ≠ .number value) ↔
      head = "out" ∧ rest = [] ∧ ∃ attributes, state.ledger.get? first = some (.region attributes) := by
  constructor
  · rintro ⟨reached, stands, noNumber⟩
    cases named : Section.ofName? head with
    | none =>
        rw [at_unknown named] at stands
        cases stands
    | some area =>
        rw [at_section named] at stands
        by_cases flat : area = .ledger
        · subst flat
          refine ⟨section_named_iff.mp named, ?_⟩
          cases entry : state.ledger.get? first with
          | none => simp [sectionPlace, Place.at_cons, Place.child?, entry] at stands
          | some held =>
              have inside : (Place.ledger state.ledger).child? first = some held.place := by
                simp [Place.child?, entry]
              rw [sectionPlace, Place.at_cons_of_child inside] at stands
              cases held with
              | number number =>
                  cases rest with
                  | nil => exact absurd (Option.some.inj stands).symm (noNumber number)
                  | cons next further => cases stands
              | region attributes =>
                  cases rest with
                  | nil => exact ⟨rfl, attributes, rfl⟩
                  | cons name more =>
                      obtain ⟨value, number⟩ := at_innermost (region_innermost attributes) stands
                      exact absurd number (noNumber value)
        · rw [section_place_flat state flat] at stands
          obtain ⟨value, number⟩ := at_innermost (names_innermost _) stands
          exact absurd number (noNumber value)
  · rintro ⟨rfl, rfl, attributes, entry⟩
    have inside : (Place.ledger state.ledger).child? first = some (.region attributes) := by
      simp [Place.child?, entry, LedgerEntry.place]
    refine ⟨.region attributes, ?_, nofun⟩
    rw [at_section (show Section.ofName? "out" = some .ledger from rfl), sectionPlace,
      Place.at_singleton, inside]

/-! ## Failures -/

theorem get_error_iff {state : State} {text : String} {error : RuntimeError} :
    state.get (.parse text) = .error error ↔
      (error = .notANumber text ∧ ∃ region attributes, Path.names text = ["out", region] ∧
        state.ledger.get? region = some (.region attributes)) ∨
      ∃ before segment after, (Place.root state).BreaksOff (Path.names text) before segment after ∧
        error = .notFound segment text := by
  obtain ⟨head, names, _⟩ := Path.parse_names text
  have regions : (error = .notANumber text ∧ ∃ region attributes, Path.names text = ["out", region] ∧
      state.ledger.get? region = some (.region attributes)) ↔
      error = .notANumber text ∧ ∃ reached, state.at? (Path.names text) = some reached ∧
        ∀ value, reached ≠ .number value := by
    rw [names, at_no_number_iff]
    simp only [List.cons.injEq, and_assoc, exists_and_left, exists_eq_left']
  rw [regions, get_is_walk, ← Place.walk_error_iff]
  cases walked : (Place.root state).walk text (Path.names text) with
  | error failure =>
      have nowhere : ∀ reached, state.at? (Path.names text) ≠ some reached := by
        intro reached stands
        rw [at?, ← Place.walk_ok_iff text, walked] at stands
        cases stands
      simp [nowhere, bind, Except.bind]
  | ok reached =>
      have stands : state.at? (Path.names text) = some reached :=
        (Place.walk_ok_iff _ _ _).mp walked
      cases reached <;> simp [stands, bind, Except.bind, Place.read, eq_comm]

theorem names_concat (text : String) :
    ∃ head between last, Path.names text = (head :: between) ++ [last] := by
  obtain ⟨head, names, _⟩ := Path.parse_names text
  have split := List.dropLast_concat_getLast (List.cons_ne_nil (Path.parse text).first (Path.parse text).rest)
  exact ⟨head, _, _, by rw [names, List.cons_append, split]⟩

/-- A write that is refused has the error of the read. -/
theorem get_of_set_error {state : State} {text : String} {value : Float} {error : RuntimeError}
    (refused : state.set (.parse text) value = .error error) :
    state.get (.parse text) = .error error := by
  obtain ⟨head, between, last, names⟩ := names_concat text
  have entered := set_is_walk state text value
  rw [refused, names, Place.enter_concat] at entered
  rw [get_is_walk, names, Place.walk_append]
  cases walked : (Place.root state).walk text (head :: between) with
  | error failure =>
      rw [walked] at entered
      obtain rfl : error = failure := Except.error.inj entered
      rfl
  | ok reached =>
      rw [walked] at entered
      cases reached with
      | number number =>
          obtain rfl : error = .notFound last text := Except.error.inj entered
          rfl
      | _ => cases entered

/-- There is nothing, or a number, at the end of the names. -/
def Closed (state : State) (names : List String) : Prop :=
  state.at? names = none ∨ ∃ number, state.at? names = some (.number number)

theorem closed_append {state : State} {names : List String} (closed : state.Closed names)
    (more : List String) : state.Closed (names ++ more) := by
  unfold Closed at?
  have parts : (Place.root state).at? (names ++ more) =
      ((Place.root state).at? names).bind (·.at? more) := List.foldlM_append
  rw [parts]
  rcases closed with nothing | ⟨number, stands⟩
  · rw [show (Place.root state).at? names = none from nothing]
    exact Or.inl rfl
  · rw [show (Place.root state).at? names = some (.number number) from stands]
    cases more with
    | nil => exact Or.inr ⟨number, rfl⟩
    | cons next further => exact Or.inl rfl

/-- A write is refused exactly if what its last segment is put in is closed. -/
theorem set_refused_iff {state : State} {text : String} {leading : List String} {last : String}
    (names : Path.names text = leading ++ [last]) (value : Float) :
    (∃ error, state.set (.parse text) value = .error error) ↔ state.Closed leading := by
  have entered := set_is_walk state text value
  rw [names, Place.enter_concat] at entered
  have refused : (∃ error, state.set (.parse text) value = .error error) ↔
      ∃ error, (Place.root state).walk text leading >>= Place.accept text last = .error error := by
    rw [← entered]
    cases state.set (.parse text) value <;> simp [Except.map]
  rw [refused]
  unfold Closed
  cases walked : (Place.root state).walk text leading with
  | error failure =>
      have nowhere : state.at? leading = none := by
        cases stands : state.at? leading with
        | none => rfl
        | some reached =>
            rw [at?, ← Place.walk_ok_iff text, walked] at stands
            cases stands
      simp [nowhere, bind, Except.bind]
  | ok reached =>
      have stands : state.at? leading = some reached := (Place.walk_ok_iff _ _ _).mp walked
      cases reached <;> simp [stands, bind, Except.bind, Place.accept]

/-- Reads and writes agree on which paths exist.  A write that fails has the error of the read, so what is
readable is writable.  A read fails at a region as no number, and otherwise at the first segment that
leads nowhere, where nothing stands below a number.  A write fails exactly if the section is unknown or a
segment before the last one is absent or a number. -/
theorem reads_and_writes_agree (state : State) (text : String) :
    (∀ value error, state.set (.parse text) value = .error error →
      state.get (.parse text) = .error error) ∧
    (∀ error, state.get (.parse text) = .error error ↔
      (error = .notANumber text ∧ ∃ region attributes, Path.names text = ["out", region] ∧
        state.ledger.get? region = some (.region attributes)) ∨
      ∃ before segment after, Path.names text = before ++ segment :: after ∧
        (∃ reached, state.at? before = some reached) ∧ state.at? (before ++ [segment]) = none ∧
        error = .notFound segment text) ∧
    (∀ value, (∃ error, state.set (.parse text) value = .error error) ↔
      (∃ head names, Path.names text = head :: names ∧ Section.ofName? head = none) ∨
      ∃ before segment next after, Path.names text = before ++ segment :: next :: after ∧
        (state.at? (before ++ [segment]) = none ∨
          ∃ number, state.at? (before ++ [segment]) = some (.number number))) := by
  refine ⟨fun value error refused => get_of_set_error refused, ?_, ?_⟩
  · intro error
    rw [get_error_iff]
    apply or_congr_right
    constructor
    · rintro ⟨before, segment, after, ⟨whole, stands, missing⟩, same⟩
      exact ⟨before, segment, after, whole, stands, missing, same⟩
    · rintro ⟨before, segment, after, whole, stands, missing, same⟩
      exact ⟨before, segment, after, ⟨whole, stands, missing⟩, same⟩
  · intro value
    obtain ⟨head, between, last, names⟩ := names_concat text
    rw [set_refused_iff names value]
    constructor
    · intro closed
      obtain ⟨before, segment, split⟩ : ∃ before segment, head :: between = before ++ [segment] :=
        ⟨_, _, (List.dropLast_concat_getLast (List.cons_ne_nil head between)).symm⟩
      exact Or.inr ⟨before, segment, last, [], by simp [names, split], split ▸ closed⟩
    · rintro (⟨other, more, same, unknown⟩ | ⟨before, segment, next, after, same, closed⟩)
      · obtain rfl : head = other := (List.cons.inj (names.symm.trans same)).1
        exact Or.inl (at_unknown unknown between)
      · have inner : head :: between = (before ++ [segment]) ++ (next :: after).dropLast := by
          have ends := congrArg List.dropLast (names.symm.trans same)
          rw [List.dropLast_concat] at ends
          rw [ends, List.dropLast_append_of_ne_nil (List.cons_ne_nil _ _)]
          simp
        rw [inner]
        exact closed_append closed _

/-- An attribute has nothing inside, so a path that goes on below it is refused both ways. -/
theorem attribute_is_closed :
    regionState.set (.parse "out.china.x.y.z") 3.0 = .error (.notFound "y" "out.china.x.y.z") ∧
      regionState.get (.parse "out.china.x.y.z") = .error (.notFound "y" "out.china.x.y.z") ∧
      regionState.get (.parse "out.china") = .error (.notANumber "out.china") := by
  obtain ⟨sameError, _, _⟩ := reads_and_writes_agree regionState "out.china.x.y.z"
  obtain ⟨_, readFails, _⟩ := reads_and_writes_agree regionState "out.china"
  exact ⟨rfl, sameError 3.0 _ rfl, (readFails _).mpr (Or.inl ⟨rfl, "china", _, rfl, rfl⟩)⟩

end State

end PolicyLevers
