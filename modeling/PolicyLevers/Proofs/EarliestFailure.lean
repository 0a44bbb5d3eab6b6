import PolicyLevers.Projection.Engine
import PolicyLevers.Proofs.MapLaws

/-!
# The answer of a run

A run answers with the earliest year that fails, historical years first, or with a frame for every
year of both ranges.  Building all projected years before their frames are merged gives the same
answer as stopping at the first failure, whatever order the years are finished in.
-/

namespace PolicyLevers

set_option autoImplicit false

theorem YearRange.mem_years {range : YearRange} {year : Int} :
    year ∈ range.years ↔ range.first ≤ year ∧ year ≤ range.last := by
  unfold YearRange.years
  simp only [List.mem_map, List.mem_range]
  constructor
  · rintro ⟨offset, bound, rfl⟩
    omega
  · rintro ⟨lower, upper⟩
    exact ⟨(year - range.first).toNat, by omega, by omega⟩

theorem YearRange.years_ascending (range : YearRange) : range.years.Pairwise (· < ·) := by
  unfold YearRange.years
  rw [List.pairwise_map]
  exact List.pairwise_lt_range.imp (fun less => by omega)

structure YearRange.Earliest (range : YearRange) (property : Int → Prop) (year : Int) : Prop where
  inside : year ∈ range.years
  holds : property year
  first : ∀ earlier ∈ range.years, earlier < year → ¬property earlier

theorem first_or_none {years : List Int} (ascending : years.Pairwise (· < ·))
    (property : Int → Prop) :
    (∃ year ∈ years, property year ∧ ∀ earlier ∈ years, earlier < year → ¬property earlier) ∨
      ∀ year ∈ years, ¬property year := by
  induction years with
  | nil => simp
  | cons head rest ih =>
      obtain ⟨below, restAscending⟩ := List.pairwise_cons.mp ascending
      by_cases here : property head
      · refine Or.inl ⟨head, by simp, here, ?_⟩
        intro earlier member less
        rcases List.mem_cons.mp member with same | later
        · omega
        · have := below earlier later
          omega
      · rcases ih restAscending with ⟨year, member, holds, first⟩ | none
        · refine Or.inl ⟨year, by simp [member], holds, ?_⟩
          intro earlier earlierMember less
          rcases List.mem_cons.mp earlierMember with same | later
          · exact same ▸ here
          · exact first earlier later less
        · exact Or.inr (by simpa [here] using none)

theorem YearRange.earliest_or_none (range : YearRange) (property : Int → Prop) :
    (∃ year, range.Earliest property year) ∨ ∀ year ∈ range.years, ¬property year := by
  rcases first_or_none range.years_ascending property with ⟨year, inside, holds, first⟩ | none
  · exact Or.inl ⟨year, inside, holds, first⟩
  · exact Or.inr none

def Projection.addYears {ε : Type} (build : Int → Except ε State) (projection : Projection) :
    List Int → Except ε Projection
  | [] => .ok projection
  | year :: rest => do
    let frame ← build year
    Projection.addYears build (projection.insert year frame) rest

namespace Projection

variable {ε : Type} {build : Int → Except ε State}

theorem add_years_failed {error : ε} {year : Int} (projection : Projection) {years : List Int}
    (ascending : years.Pairwise (· < ·)) (inside : year ∈ years) (failed : build year = .error error)
    (before : ∀ earlier ∈ years, earlier < year → ∃ frame, build earlier = .ok frame) :
    addYears build projection years = .error error := by
  induction years generalizing projection with
  | nil => simp at inside
  | cons head rest ih =>
      obtain ⟨below, restAscending⟩ := List.pairwise_cons.mp ascending
      rcases List.mem_cons.mp inside with same | later
      · subst same
        simp [addYears, failed, bind, Except.bind]
      · obtain ⟨frame, built⟩ := before head (by simp) (below year later)
        simp only [addYears, built, bind, Except.bind]
        exact ih (projection.insert head frame) restAscending later
          (fun earlier member less => before earlier (by simp [member]) less)

theorem add_years_built (projection : Projection) {years : List Int}
    (built : ∀ year ∈ years, ∃ frame, build year = .ok frame) :
    ∃ result, addYears build projection years = .ok result ∧
      ∀ year, result.get? year =
        if year ∈ years then (build year).toOption else projection.get? year := by
  induction years generalizing projection with
  | nil => exact ⟨projection, rfl, by simp⟩
  | cons head rest ih =>
      obtain ⟨frame, headBuilt⟩ := built head (by simp)
      obtain ⟨result, added, values⟩ := ih (projection.insert head frame)
        (fun year member => built year (by simp [member]))
      refine ⟨result, by simpa [addYears, headBuilt, bind, Except.bind] using added, ?_⟩
      intro year
      rw [values year, SortedMap.get_insert]
      by_cases member : year ∈ rest
      · simp [member]
      · by_cases same : year = head
        · subst same
          simp [member, headBuilt, Except.toOption]
        · simp [member, same]

end Projection

namespace Engine

theorem add_historical_eq (engine : Engine) (request : RunRequest) (projection : Projection)
    (years : List Int) :
    engine.addHistorical request projection years =
      Projection.addYears (engine.historicalFrame request) projection years := by
  induction years generalizing projection with
  | nil => rfl
  | cons year rest ih => simp only [addHistorical, Projection.addYears, ih]

theorem add_in_order_eq (engine : Engine) (request : RunRequest) (projection : Projection)
    (years : List Int) :
    engine.addInOrder request projection years =
      Projection.addYears (engine.projectedFrame request) projection years := by
  induction years generalizing projection with
  | nil => rfl
  | cons year rest ih => simp only [addInOrder, Projection.addYears, ih]

theorem merge_outcomes_eq (build : Int → YearOutcome) (projection : Projection) (years : List Int) :
    mergeOutcomes projection (years.map (fun year => (year, build year))) =
      Projection.addYears build projection years := by
  induction years generalizing projection with
  | nil => rfl
  | cons year rest ih => simp only [List.map_cons, mergeOutcomes, Projection.addYears, ih]

/-- No sampler breaks down in a projected year. -/
def Steady (engine : Engine) (request : RunRequest) : Prop :=
  ∀ year ∈ request.projected.years, breakdown? (engine.projectedFrame request year) = none

instance (engine : Engine) (request : RunRequest) : Decidable (engine.Steady request) :=
  inferInstanceAs (Decidable (∀ year ∈ request.projected.years,
    breakdown? (engine.projectedFrame request year) = none))

theorem steady_quiet {engine : Engine} {request : RunRequest} (steady : engine.Steady request) :
    (request.projected.years.map
      (fun year => (year, engine.projectedFrame request year))).findSome?
        (fun (_, outcome) => breakdown? outcome) = none := by
  simpa [List.findSome?_map, Steady] using steady

theorem add_together_eq {engine : Engine} {request : RunRequest} (steady : engine.Steady request)
    (projection : Projection) :
    engine.addTogether request projection request.projected.years =
      Projection.addYears (engine.projectedFrame request) projection request.projected.years := by
  unfold addTogether
  simp only [steady_quiet steady]
  exact merge_outcomes_eq (engine.projectedFrame request) projection request.projected.years

/-- The outcomes of years that were finished in some order, in the order of the years. -/
def collect (engine : Engine) (request : RunRequest) (finished : List Int) : List (Int × YearOutcome) :=
  (finished.map (fun year => (year, engine.projectedFrame request year))).mergeSort
    (fun earlier later => earlier.1 ≤ later.1)

theorem collect_eq (engine : Engine) (request : RunRequest) {finished : List Int}
    (all : finished.Perm request.projected.years) :
    engine.collect request finished =
      request.projected.years.map (fun year => (year, engine.projectedFrame request year)) := by
  let outcomes := request.projected.years.map (fun year => (year, engine.projectedFrame request year))
  have ordered : outcomes.Pairwise (fun earlier later => earlier.1 < later.1) :=
    List.pairwise_map.mpr request.projected.years_ascending
  have sorted : (engine.collect request finished).Pairwise
      (fun earlier later => decide (earlier.1 ≤ later.1) = true) :=
    List.pairwise_mergeSort (fun a b c left right => by simp only [decide_eq_true_eq] at *; omega)
      (fun a b => by simp only [Bool.or_eq_true, decide_eq_true_eq]; omega) _
  have same : (engine.collect request finished).Perm outcomes :=
    (List.mergeSort_perm _ _).trans (all.map _)
  -- two entries of one year are the same entry, so the order by years is antisymmetric here
  refine same.eq_of_pairwise ?_ sorted (ordered.imp (fun less => by simp only [decide_eq_true_eq]; omega))
  intro left right leftIn rightIn below above
  simp only [decide_eq_true_eq] at below above
  have leftHere := same.subset leftIn
  simp only [outcomes, List.mem_map] at leftHere rightIn
  obtain ⟨leftYear, _, rfl⟩ := leftHere
  obtain ⟨rightYear, _, rfl⟩ := rightIn
  have years : leftYear = rightYear := by simp only at below above; omega
  rw [years]

/-- A run that merges its projected years after they were finished in some order. -/
def runFinishing (engine : Engine) (request : RunRequest) (finished : List Int) :
    Except (Halt RunFailure) Projection :=
  match engine.addHistorical request ∅ request.historical.years with
  | .error error => .error (.failure (.ofFrame request.index error))
  | .ok projection =>
    (mergeOutcomes projection (engine.collect request finished)).mapError
      (Halt.map (RunFailure.ofFrame request.index))

/-- The answer without regard to how projected years are scheduled. -/
def answer (engine : Engine) (request : RunRequest) : Except (Halt RunFailure) Projection :=
  match Projection.addYears (engine.historicalFrame request) ∅ request.historical.years with
  | .error error => .error (.failure (.ofFrame request.index error))
  | .ok projection =>
    (Projection.addYears (engine.projectedFrame request) projection request.projected.years).mapError
      (Halt.map (RunFailure.ofFrame request.index))

theorem run_sequential (engine : Engine) (request : RunRequest) :
    { engine with parallel := false }.run request = engine.answer request := by
  simp only [run, answer, add_historical_eq, add_in_order_eq]
  rfl

theorem run_parallel {engine : Engine} {request : RunRequest} (steady : engine.Steady request) :
    { engine with parallel := true }.run request = engine.answer request := by
  have together := fun projection =>
    add_together_eq (show Steady { engine with parallel := true } request from steady) projection
  simp only [run, answer, add_historical_eq, together]
  rfl

theorem run_finishing {engine : Engine} {request : RunRequest} {finished : List Int}
    (all : finished.Perm request.projected.years) :
    engine.runFinishing request finished = engine.answer request := by
  simp only [runFinishing, answer, add_historical_eq, collect_eq engine request all,
    merge_outcomes_eq]

/-- The projected year fails when it is built on its own. -/
def Fails (engine : Engine) (request : RunRequest) (year : Int) : Prop :=
  ∃ error rest, FrameBuilder.buildProjected ⟨engine.baseline, request.inputs, request.levers⟩ year
    (yearSource engine.seed year) = .error (.failure error) rest

/-- What a request may be answered.  The cases exclude one another. -/
inductive Answer (engine : Engine) (request : RunRequest) :
    Except (Halt RunFailure) Projection → Prop where
  | missing {year : Int}
      (earliest : request.historical.Earliest (fun year => engine.baseline.regions? year = none) year) :
      Answer engine request (.error (.failure ⟨request.index, year, none, .missingBaseline year⟩))
  /-- A projected year fails, and no historical one. -/
  | failed {year : Int} {error : FrameError} {rest : Random.WordSource}
      (data : ∀ year ∈ request.historical.years, engine.baseline.regions? year ≠ none)
      (earliest : request.projected.Earliest (engine.Fails request) year)
      (built : FrameBuilder.buildProjected ⟨engine.baseline, request.inputs, request.levers⟩ year
        (yearSource engine.seed year) = .error (.failure error) rest) :
      Answer engine request (.error (.failure ⟨request.index, year, error.lever, error.source⟩))
  /-- Every year of both ranges has a frame; a year of both ranges has its projected one. -/
  | complete {projection : Projection}
      (years : ∀ year, projection.contains year = true ↔
        year ∈ request.historical.years ∨ year ∈ request.projected.years)
      (projected : ∀ year ∈ request.projected.years, ∃ state rest,
        FrameBuilder.buildProjected ⟨engine.baseline, request.inputs, request.levers⟩ year
            (yearSource engine.seed year) = .ok state rest ∧
          projection.get? year = some state.withRollup)
      (historical : ∀ year ∈ request.historical.years, year ∉ request.projected.years →
        ∃ state, FrameBuilder.buildHistorical ⟨engine.baseline, request.inputs, request.levers⟩ year =
            .ok state ∧
          projection.get? year = some state.withRollup) :
      Answer engine request (.ok projection)

theorem apply_levers_failure_year {year : Int} {levers : List CompiledLever} {state : State}
    {source rest : Random.WordSource} {error : FrameError}
    (failed : FrameBuilder.applyLevers year levers state source = .error (.failure error) rest) :
    error.year = year := by
  induction levers generalizing state source with
  | nil => cases failed
  | cons lever levers ih =>
      simp only [FrameBuilder.applyLevers] at failed
      split at failed
      · exact ih failed
      next reason world ran =>
          cases reason with
          | failure inner => cases failed; rfl
          | breakdown fault => cases failed

theorem build_historical_failed {engine : Engine} {request : RunRequest} {year : Int}
    {error : FrameError} :
    (engine.builder request).buildHistorical year = .error error ↔
      engine.baseline.regions? year = none ∧ error = ⟨year, none, .missingBaseline year⟩ := by
  unfold FrameBuilder.buildHistorical
  cases found : (engine.builder request).baseline.regions? year with
  | none =>
      have absent : engine.baseline.regions? year = none := found
      simp [absent, eq_comm]
  | some table =>
      have present : engine.baseline.regions? year = some table := found
      simp [present]

theorem build_projected_failure_year {engine : Engine} {request : RunRequest} {year : Int}
    {source rest : Random.WordSource} {error : FrameError}
    (failed : (engine.builder request).buildProjected year source = .error (.failure error) rest) :
    error.year = year := by
  unfold FrameBuilder.buildProjected at failed
  cases historical : (engine.builder request).buildHistorical year with
  | error missing =>
      obtain ⟨_, rfl⟩ := build_historical_failed.mp historical
      simp only [historical] at failed
      cases failed
      rfl
  | ok state =>
      simp only [historical] at failed
      exact apply_levers_failure_year failed

theorem historical_frame_ok {engine : Engine} (request : RunRequest) {year : Int}
    (data : engine.baseline.regions? year ≠ none) :
    ∃ state, (engine.builder request).buildHistorical year = .ok state ∧
      engine.historicalFrame request year = .ok state.withRollup := by
  cases built : (engine.builder request).buildHistorical year with
  | error error => exact absurd (build_historical_failed.mp built).1 data
  | ok state => exact ⟨state, rfl, by simp [historicalFrame, built, Except.map]⟩

theorem historical_frame_missing {engine : Engine} {request : RunRequest} {year : Int}
    (missing : engine.baseline.regions? year = none) :
    engine.historicalFrame request year = .error ⟨year, none, .missingBaseline year⟩ := by
  have built : (engine.builder request).buildHistorical year = .error _ :=
    build_historical_failed.mpr ⟨missing, rfl⟩
  simp [historicalFrame, built, Except.map]

/-- A projected year that does not fail has a frame, unless a sampler breaks down in it. -/
theorem projected_frame_ok {engine : Engine} {request : RunRequest} {year : Int}
    (quiet : breakdown? (engine.projectedFrame request year) = none)
    (built : ¬engine.Fails request year) :
    ∃ state rest, (engine.builder request).buildProjected year (yearSource engine.seed year) =
      .ok state rest ∧ engine.projectedFrame request year = .ok state.withRollup := by
  unfold projectedFrame at quiet ⊢
  cases outcome : (engine.builder request).buildProjected year (yearSource engine.seed year) with
  | ok state rest => exact ⟨state, rest, rfl, rfl⟩
  | error reason rest =>
      cases reason with
      | failure error => exact absurd ⟨error, rest, outcome⟩ built
      | breakdown fault => simp [outcome, breakdown?] at quiet

theorem answer_holds {engine : Engine} {request : RunRequest} (steady : engine.Steady request) :
    Answer engine request (engine.answer request) := by
  rcases request.historical.earliest_or_none (fun year => engine.baseline.regions? year = none)
    with ⟨year, earliest⟩ | data
  · have stopped : Projection.addYears (engine.historicalFrame request) ∅ request.historical.years =
        .error ⟨year, none, .missingBaseline year⟩ := by
      refine Projection.add_years_failed ∅ request.historical.years_ascending earliest.inside
        (historical_frame_missing earliest.holds) ?_
      intro earlier member less
      obtain ⟨state, _, frame⟩ := historical_frame_ok request
        (earliest.first earlier member less)
      exact ⟨state.withRollup, frame⟩
    simp only [answer, stopped]
    exact .missing earliest
  have copies : ∀ year ∈ request.historical.years,
      ∃ frame, engine.historicalFrame request year = .ok frame := by
    intro year member
    obtain ⟨state, _, frame⟩ := historical_frame_ok request (data year member)
    exact ⟨state.withRollup, frame⟩
  obtain ⟨copied, historicalAdded, historicalValues⟩ := Projection.add_years_built ∅ copies
  simp only [answer, historicalAdded]
  rcases request.projected.earliest_or_none (engine.Fails request) with ⟨year, earliest⟩ | built
  · obtain ⟨error, rest, failed⟩ : ∃ error rest, (engine.builder request).buildProjected year
        (yearSource engine.seed year) = .error (.failure error) rest := earliest.holds
    have frame : engine.projectedFrame request year = .error (.failure error) := by
      simp [projectedFrame, failed]
    have stopped := Projection.add_years_failed copied request.projected.years_ascending
      earliest.inside frame (fun earlier member less => by
        obtain ⟨state, _, _, frame⟩ := projected_frame_ok (steady earlier member)
          (earliest.first earlier member less)
        exact ⟨state.withRollup, frame⟩)
    have sameYear := build_projected_failure_year failed
    rw [stopped]
    change Answer engine request
      (.error (.failure ⟨request.index, error.year, error.lever, error.source⟩))
    rw [sameYear]
    exact .failed data earliest failed
  · have frames := fun year member => projected_frame_ok (steady year member) (built year member)
    have projections : ∀ year ∈ request.projected.years,
        ∃ frame, engine.projectedFrame request year = .ok frame := by
      intro year member
      obtain ⟨state, _, _, frame⟩ := frames year member
      exact ⟨state.withRollup, frame⟩
    obtain ⟨projection, projectedAdded, values⟩ := Projection.add_years_built copied projections
    rw [projectedAdded]
    change Answer engine request (.ok projection)
    refine .complete ?_ ?_ ?_
    · intro year
      rw [SortedMap.contains, values year, historicalValues year]
      by_cases later : year ∈ request.projected.years
      · obtain ⟨state, _, _, frame⟩ := frames year later
        simp [later, frame, Except.toOption]
      · by_cases earlier : year ∈ request.historical.years
        · obtain ⟨state, _, frame⟩ := historical_frame_ok request (data year earlier)
          simp [later, earlier, frame, Except.toOption]
        · simp [later, earlier]
    · intro year member
      obtain ⟨state, rest, built, frame⟩ := frames year member
      exact ⟨state, rest, built, by simp [values year, member, frame, Except.toOption]⟩
    · intro year member apart
      obtain ⟨state, built, frame⟩ := historical_frame_ok request (data year member)
      exact ⟨state, built, by
        simp [values year, historicalValues year, apart, member, frame, Except.toOption]⟩

/-- With no sampler broken down, a run answers the same whether it stops at the first failing year or
builds all projected years, in whatever order these are finished. -/
theorem run_answers_in_any_schedule (engine : Engine) (request : RunRequest)
    (steady : engine.Steady request) :
    Answer engine request ({ engine with parallel := false }.run request) ∧
      { engine with parallel := true }.run request = { engine with parallel := false }.run request ∧
      ∀ finished : List Int, finished.Perm request.projected.years →
        engine.runFinishing request finished = { engine with parallel := false }.run request := by
  refine ⟨?_, ?_, ?_⟩
  · rw [run_sequential]
    exact answer_holds steady
  · rw [run_sequential, run_parallel steady]
  · intro finished all
    rw [run_sequential, run_finishing all]

def rampBaseline : Baseline :=
  .ofRecords ([2020, 2021, 2022, 2023].map (fun year =>
    ⟨year, "china", .ofList [("eolRecyclingMT", 1.0)]⟩))

/-- Reads an input that is absent from 2022 on. -/
def rampLever : CompiledLever :=
  ⟨"ramp", 0, ⟨[.assign (.parse "out.china.eolRecyclingMT")
    (.conditional .lt (.read (.parse "meta.year")) (.number 2022.0) (.read (.parse "in.rate"))
      (.read (.parse "in.missing")))], 10⟩⟩

def rampEngine : Engine := ⟨rampBaseline, 11, true⟩

/-- The ranges overlap, and two projected years fail. -/
def rampRequest : RunRequest := ⟨7, ⟨2020, 2021⟩, ⟨2021, 2023⟩, [rampLever], .ofList [("rate", 2.0)]⟩

theorem ramp_run_answers : rampEngine.Steady rampRequest ∧
    Answer rampEngine rampRequest ({ rampEngine with parallel := false }.run rampRequest) ∧
    { rampEngine with parallel := true }.run rampRequest =
      { rampEngine with parallel := false }.run rampRequest ∧
    rampEngine.runFinishing rampRequest [2023, 2021, 2022] =
      { rampEngine with parallel := false }.run rampRequest := by
  have steady : rampEngine.Steady rampRequest := by decide +kernel
  obtain ⟨answers, parallel, finishing⟩ := run_answers_in_any_schedule rampEngine rampRequest steady
  exact ⟨steady, answers, parallel, finishing [2023, 2021, 2022] (by decide)⟩

end Engine

end PolicyLevers
