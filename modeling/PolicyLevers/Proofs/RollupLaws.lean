import PolicyLevers.Proofs.IndependentYears

/-!
# The laws of the global rollup

The rollup lists every attribute of the regions other than the global one with the sum of its values, in
the order of the region names, and net imports with zero.  It is made from these regions alone, so what
stands in place of the global one has no influence, and making it again changes nothing.  Frames are
finished with a rollup after all levers, so no script can leave another one behind.
-/

namespace PolicyLevers

set_option autoImplicit false

open SortedMap

/-! ## Sums -/

/-- The value of an attribute in an entry of the ledger that counts in the rollup. -/
def quantity? (name : String) (entry : String × LedgerEntry) : Option Float :=
  if entry.1 = Catalog.globalRegion then none
  else entry.2.attributes?.bind (fun attributes => attributes.get? name)

namespace State

def quantities (state : State) (name : String) : List Float :=
  state.ledger.entries.filterMap (quantity? name)

def rolledUp (name : String) (values : List Float) : Float :=
  if Catalog.isRollupExcluded name then 0.0 else values.foldl (· + ·) 0.0

end State

def addQuantity (name : String) (value total : Float) : Float :=
  if Catalog.isRollupExcluded name then total else total + value

theorem add_to_totals_eq (totals attributes : Attributes) :
    addToTotals totals attributes = attributes.entries.foldl
      (fun totals entry => totals.change entry.1 0.0 (addQuantity entry.1 entry.2)) totals := by
  rfl

theorem get_add_to_totals (totals attributes : Attributes) (name : String) :
    (addToTotals totals attributes).get? name =
      ((attributes.get? name).map
        (fun value => addQuantity name value ((totals.get? name).getD 0.0))).or (totals.get? name) := by
  rw [add_to_totals_eq]
  exact get_change_all attributes totals 0.0 addQuantity name

theorem get_totals (tables : List Attributes) (totals : Attributes) (name : String) :
    (tables.foldl addToTotals totals).get? name =
      (tables.filterMap (fun attributes => attributes.get? name)).foldl
        (fun total value => some (addQuantity name value (total.getD 0.0))) (totals.get? name) := by
  induction tables generalizing totals with
  | nil => rfl
  | cons attributes rest induction =>
      rw [List.foldl_cons, induction, get_add_to_totals]
      cases found : attributes.get? name <;> simp [found]

theorem summed_quantities (name : String) (values : List Float) (start : Float) :
    values.foldl (fun total value => some (addQuantity name value (total.getD 0.0))) (some start) =
      some (if Catalog.isRollupExcluded name then start else values.foldl (· + ·) start) := by
  induction values generalizing start with
  | nil => simp
  | cons value rest induction =>
      rw [List.foldl_cons, Option.getD_some, induction]
      by_cases excluded : Catalog.isRollupExcluded name = true <;> simp [addQuantity, excluded]

namespace State

/-- The rollup goes over the regions of the ledger without the global one. -/
theorem rollup_tables (state : State) :
    state.rollup = (state.ledger.entries.filterMap (fun entry =>
      if entry.1 = Catalog.globalRegion then none else entry.2.attributes?)).foldl addToTotals ∅ := by
  unfold rollup regions SortedMap.filterMap
  dsimp only
  generalize (∅ : Attributes) = totals
  induction state.ledger.entries generalizing totals with
  | nil => rfl
  | cons entry rest induction =>
      obtain ⟨region, held⟩ := entry
      cases held with
      | number value => simpa [LedgerEntry.attributes?] using induction totals
      | region attributes =>
          by_cases excluded : region = Catalog.globalRegion
          · simpa [LedgerEntry.attributes?, excluded] using induction totals
          · simpa [LedgerEntry.attributes?, excluded] using induction (addToTotals totals attributes)

theorem quantities_eq (state : State) (name : String) :
    (state.ledger.entries.filterMap (fun entry =>
      if entry.1 = Catalog.globalRegion then none else entry.2.attributes?)).filterMap
        (fun attributes => attributes.get? name) = state.quantities name := by
  rw [List.filterMap_filterMap, quantities]
  congr 1
  funext entry
  unfold quantity?
  by_cases excluded : entry.1 = Catalog.globalRegion <;> simp [excluded]

theorem get_rollup (state : State) (name : String) :
    state.rollup.get? name =
      if state.quantities name = [] then none else some (rolledUp name (state.quantities name)) := by
  rw [rollup_tables, get_totals, quantities_eq, get_empty]
  cases values : state.quantities name with
  | nil => rfl
  | cons value rest =>
      rw [List.foldl_cons, Option.getD_none, summed_quantities, if_neg (List.cons_ne_nil _ _)]
      by_cases excluded : Catalog.isRollupExcluded name = true <;>
        simp [rolledUp, addQuantity, excluded]

/-! ## What the rollup depends on -/

theorem quantities_erase (state : State) (name : String) :
    state.quantities name =
      (state.ledger.erase Catalog.globalRegion).entries.filterMap (quantity? name) := by
  unfold quantities SortedMap.erase
  rw [List.filterMap_filter]
  congr 1
  funext entry
  by_cases excluded : entry.1 = Catalog.globalRegion
  · simp [quantity?, excluded]
  · simp [Ne.symm excluded]

theorem rollup_congr {state other : State} (same : ∀ region, region ≠ Catalog.globalRegion →
    state.ledger.get? region = other.ledger.get? region) : state.rollup = other.rollup := by
  have ledgers : state.ledger.erase Catalog.globalRegion = other.ledger.erase Catalog.globalRegion := by
    apply ext_get
    intro region
    rw [get_erase, get_erase]
    by_cases excluded : region = Catalog.globalRegion
    · simp [excluded]
    · simp [excluded, same region excluded]
  apply ext_get
  intro name
  rw [get_rollup, get_rollup, quantities_erase, quantities_erase, ledgers]

theorem ledger_with_rollup (state : State) (region : String) :
    state.withRollup.ledger.get? region =
      if region = Catalog.globalRegion then some (.region state.rollup)
      else state.ledger.get? region :=
  get_insert state.ledger Catalog.globalRegion region _

theorem rollup_with_rollup (state : State) : state.withRollup.rollup = state.rollup := by
  apply rollup_congr
  intro region other
  rw [ledger_with_rollup, if_neg other]

theorem with_rollup_idempotent (state : State) : state.withRollup.withRollup = state.withRollup := by
  have ledgers : state.withRollup.withRollup.ledger = state.withRollup.ledger := by
    apply ext_get
    intro region
    rw [ledger_with_rollup, rollup_with_rollup, ledger_with_rollup]
    by_cases excluded : region = Catalog.globalRegion <;> simp [excluded]
  calc state.withRollup.withRollup
      = { state.withRollup with ledger := state.withRollup.withRollup.ledger } := rfl
    _ = state.withRollup := by rw [ledgers]

end State

/-! ## Runs -/

namespace Engine

/-- The frame of a projected year that draws from the words given for it. -/
def frameFrom (engine : Engine) (request : RunRequest) (sources : Int → Random.WordSource)
    (year : Int) : YearOutcome :=
  match (engine.builder request).buildProjected year (sources year) with
  | .ok state _ => .ok state.withRollup
  | .error reason _ => .error reason

def runFrom (engine : Engine) (request : RunRequest) (sources : Int → Random.WordSource) :
    Except (Halt RunFailure) Projection :=
  match engine.addHistorical request ∅ request.historical.years with
  | .error error => .error (.failure (.ofFrame request.index error))
  | .ok projection =>
    let outcomes := request.projected.years.map
      (fun year => (year, engine.frameFrom request sources year))
    let broken :=
      if engine.parallel then outcomes.findSome? (fun (_, outcome) => breakdown? outcome) else none
    let result : Except (Halt FrameError) Projection := match broken with
      | some fault => .error (.breakdown fault)
      | none => mergeOutcomes projection outcomes
    result.mapError (Halt.map (RunFailure.ofFrame request.index))

theorem run_from_seed (engine : Engine) (request : RunRequest) :
    engine.runFrom request (yearSource engine.seed) = engine.run request := by
  have frames : engine.frameFrom request (yearSource engine.seed) = engine.projectedFrame request := rfl
  unfold runFrom run
  rw [frames]
  cases engine.addHistorical request ∅ request.historical.years with
  | error error => rfl
  | ok projection =>
      cases scheduled : engine.parallel with
      | true => rfl
      | false => simp only [Bool.false_eq_true, if_false, merge_outcomes_eq, add_in_order_eq]

theorem historical_frame_rolled_up {engine : Engine} {request : RunRequest} {year : Int} {frame : State}
    (built : engine.historicalFrame request year = .ok frame) :
    ∃ state : State, frame = state.withRollup := by
  unfold historicalFrame at built
  cases copied : (engine.builder request).buildHistorical year with
  | error error =>
      rw [copied] at built
      cases built
  | ok state =>
      rw [copied] at built
      cases built
      exact ⟨state, rfl⟩

theorem frame_from_rolled_up {engine : Engine} {request : RunRequest}
    {sources : Int → Random.WordSource} {year : Int} {frame : State}
    (built : engine.frameFrom request sources year = .ok frame) :
    ∃ state : State, frame = state.withRollup := by
  unfold frameFrom at built
  split at built
  · cases built
    exact ⟨_, rfl⟩
  · cases built

/-- A run that succeeds holds the frames that were built for its years, historical or projected. -/
theorem run_from_frames {engine : Engine} {request : RunRequest} {sources : Int → Random.WordSource}
    {projection : Projection} (ran : engine.runFrom request sources = .ok projection) {year : Int}
    {frame : State} (found : projection.get? year = some frame) :
    engine.historicalFrame request year = .ok frame ∨
      engine.frameFrom request sources year = .ok frame := by
  unfold runFrom at ran
  split at ran
  · cases ran
  next base copied =>
      rw [add_historical_eq] at copied
      obtain ⟨-, copies⟩ := Projection.add_years_ok_iff.mp copied
      dsimp only at ran
      rw [map_error_ok_iff] at ran
      split at ran
      · cases ran
      rw [merge_outcomes_eq] at ran
      obtain ⟨-, frames⟩ := Projection.add_years_ok_iff.mp ran
      rw [frames year, copies year] at found
      have built : ∀ {ε : Type} {outcome : Except ε State}, outcome.toOption = some frame →
          outcome = .ok frame := by
        rintro ε (_ | _) same
        · cases same
        · exact congrArg Except.ok (Option.some.inj same)
      split at found
      · exact .inr (built found)
      split at found
      · exact .inl (built found)
      · cases found

end Engine

namespace State

/-- The rollup has the attributes of the regions beside the global one, net imports with zero and all
others with their sum.  The global entry has no influence on it and is all that it replaces, so a second
rollup changes nothing, and neither does one of a frame of a run, whatever words its years draw. -/
theorem rollup_sums_regions :
    (∀ (state : State) (name : String), state.rollup.get? name =
      if state.quantities name = [] then none else some (rolledUp name (state.quantities name))) ∧
    (∀ state other : State, (∀ region, region ≠ Catalog.globalRegion →
      state.ledger.get? region = other.ledger.get? region) → state.rollup = other.rollup) ∧
    (∀ state : State, state.withRollup.locals = state.locals ∧
      state.withRollup.inputs = state.inputs ∧ state.withRollup.context = state.context ∧
      state.withRollup.inspected = state.inspected ∧
      ∀ region, state.withRollup.ledger.get? region =
        if region = Catalog.globalRegion then some (.region state.rollup)
        else state.ledger.get? region) ∧
    (∀ state : State, state.withRollup.withRollup = state.withRollup) ∧
    (∀ (engine : Engine) (request : RunRequest),
      engine.runFrom request (yearSource engine.seed) = engine.run request) ∧
    ∀ (engine : Engine) (request : RunRequest) (sources : Int → Random.WordSource)
      (projection : Projection) (year : Int) (frame : State),
      engine.runFrom request sources = .ok projection → projection.get? year = some frame →
      frame.withRollup = frame := by
  refine ⟨get_rollup, fun state other => rollup_congr, ?_, with_rollup_idempotent,
    Engine.run_from_seed, ?_⟩
  · intro state
    exact ⟨rfl, rfl, rfl, rfl, ledger_with_rollup state⟩
  · intro engine request sources projection year frame ran found
    obtain ⟨state, rfl⟩ : ∃ state : State, frame = state.withRollup := by
      rcases Engine.run_from_frames ran found with copied | built
      · exact Engine.historical_frame_rolled_up copied
      · exact Engine.frame_from_rolled_up built
    exact with_rollup_idempotent state

/-- Two regions and a number in the place of the global one. -/
def strayState : State :=
  { ledger := .ofList [("china", .region (.ofList [("reuse", 1.5), ("netImportsMT", 2.0)])),
      (Catalog.globalRegion, .number 7.0), ("nafta", .region (.ofList [("reuse", 0.25)]))] }

def strayLever : CompiledLever :=
  ⟨"stray", 0, ⟨[.assign (.parse "out.global") (.number 7.0)], 10⟩⟩

def strayRequest : RunRequest := ⟨2, ⟨2020, 2020⟩, ⟨2021, 2022⟩, [strayLever], ∅⟩

theorem stray_number_is_replaced :
    strayState.rollup = (strayState.setRegion Catalog.globalRegion ∅).rollup ∧
    ∃ projection frame, Engine.rampEngine.runFrom strayRequest (fun _ => .cycle [3, 5]) =
        .ok projection ∧
      projection.get? 2021 = some frame ∧ frame.withRollup = frame := by
  obtain ⟨_, alike, _, _, _, frames⟩ := rollup_sums_regions
  constructor
  · apply alike
    intro region other
    exact (get_insert_other strayState.ledger other _).symm
  · have built : ((Engine.rampEngine.runFrom strayRequest (fun _ => .cycle [3, 5])).toOption.bind
        (fun projection => projection.get? 2021)).isSome = true := by decide +kernel
    obtain ⟨frame, present⟩ := Option.isSome_iff_exists.mp built
    obtain ⟨projection, ran, found⟩ := Option.bind_eq_some_iff.mp present
    have succeeded : Engine.rampEngine.runFrom strayRequest (fun _ => .cycle [3, 5]) =
        .ok projection := by
      cases outcome : Engine.rampEngine.runFrom strayRequest (fun _ => .cycle [3, 5]) with
      | error error => simp [outcome, Except.toOption] at ran
      | ok other => simpa [outcome, Except.toOption] using ran
    exact ⟨projection, frame, succeeded, found, frames _ _ _ projection 2021 frame succeeded found⟩

end State

end PolicyLevers
