import PolicyLevers.Proofs.EarliestFailure

/-!
# Years do not depend on one another

The frame of a year is decided by the data of that year, the inputs and, for a projected year, the
levers and the seed.  Neither the ranges of a run nor its index nor its schedule reach a frame, so two
runs agree on the years they share and a range may be projected in parts.
-/

namespace PolicyLevers

set_option autoImplicit false

theorem Projection.add_years_ok_iff {ε : Type} {build : Int → Except ε State}
    {projection result : Projection} {years : List Int} :
    addYears build projection years = .ok result ↔
      (∀ year ∈ years, ∃ frame, build year = .ok frame) ∧
        ∀ year, result.get? year =
          if year ∈ years then (build year).toOption else projection.get? year := by
  constructor
  · intro added
    have built : ∀ year ∈ years, ∃ frame, build year = .ok frame := by
      induction years generalizing projection with
      | nil => simp
      | cons head rest ih =>
          cases frame : build head with
          | error error => simp [addYears, frame, bind, Except.bind] at added
          | ok state =>
              simp only [addYears, frame, bind, Except.bind] at added
              simpa [frame] using ih added
    obtain ⟨other, again, values⟩ := add_years_built projection built
    obtain rfl : result = other := Except.ok.inj (added.symm.trans again)
    exact ⟨built, values⟩
  · rintro ⟨built, values⟩
    obtain ⟨other, added, same⟩ := add_years_built projection built
    rw [added, SortedMap.ext_get (fun year => (same year).trans (values year).symm)]

theorem YearRange.mem_parts {first split last : Int} (lower : first ≤ split) (upper : split < last)
    (year : Int) :
    year ∈ (YearRange.mk first last).years ↔
      year ∈ (YearRange.mk first split).years ∨ year ∈ (YearRange.mk (split + 1) last).years := by
  simp only [YearRange.mem_years]
  omega

namespace Engine

structure Complete (engine : Engine) (request : RunRequest) : Prop where
  historical : ∀ year ∈ request.historical.years,
    ∃ frame, engine.historicalFrame request year = .ok frame
  projected : ∀ year ∈ request.projected.years,
    ∃ frame, engine.projectedFrame request year = .ok frame

/-- The frame of a year of a request; a year of both ranges is a projected one. -/
def frame? (engine : Engine) (request : RunRequest) (year : Int) : Option State :=
  if year ∈ request.projected.years then (engine.projectedFrame request year).toOption
  else if year ∈ request.historical.years then (engine.historicalFrame request year).toOption
  else none

theorem map_error_ok_iff {ε δ α : Type} {result : Except ε α} {change : ε → δ} {value : α} :
    result.mapError change = .ok value ↔ result = .ok value := by
  cases result with
  | ok found =>
      change Except.ok found = .ok value ↔ Except.ok found = .ok value
      rw [Except.ok.injEq, Except.ok.injEq]
  | error error =>
      change Except.error (change error) = .ok value ↔ _
      exact iff_of_false (fun impossible => nomatch impossible) (fun impossible => nomatch impossible)

theorem answer_ok_iff {engine : Engine} {request : RunRequest} {projection : Projection} :
    engine.answer request = .ok projection ↔
      engine.Complete request ∧ ∀ year, projection.get? year = engine.frame? request year := by
  unfold answer
  cases copied : Projection.addYears (engine.historicalFrame request) ∅ request.historical.years with
  | error error =>
      refine iff_of_false (fun impossible => nomatch impossible) ?_
      rintro ⟨complete, _⟩
      obtain ⟨result, added, _⟩ := Projection.add_years_built ∅ complete.historical
      rw [added] at copied
      cases copied
  | ok base =>
      obtain ⟨historical, copies⟩ := Projection.add_years_ok_iff.mp copied
      have frames : ∀ year, engine.frame? request year =
          if year ∈ request.projected.years then (engine.projectedFrame request year).toOption
          else base.get? year := by
        intro year
        rw [copies year]
        rfl
      simp only [map_error_ok_iff, Projection.add_years_ok_iff, frames]
      exact and_congr_left fun _ =>
        ⟨fun built => ⟨historical, built⟩, fun complete => complete.projected⟩

theorem Complete.answered {engine : Engine} {request : RunRequest} (complete : engine.Complete request) :
    ∃ projection, engine.answer request = .ok projection := by
  obtain ⟨base, copied, _⟩ := Projection.add_years_built ∅ complete.historical
  obtain ⟨projection, added, _⟩ := Projection.add_years_built base complete.projected
  refine ⟨projection, ?_⟩
  simp only [answer, copied, added]
  rfl

theorem Complete.steady {engine : Engine} {request : RunRequest} (complete : engine.Complete request) :
    engine.Steady request := by
  intro year member
  obtain ⟨frame, built⟩ := complete.projected year member
  rw [built]
  rfl

theorem run_parallel_steady {engine : Engine} {request : RunRequest} {projection : Projection}
    (ran : { engine with parallel := true }.run request = .ok projection) : engine.Steady request := by
  unfold run at ran
  split at ran
  · cases ran
  next base copied =>
      simp only [if_true, map_error_ok_iff, addTogether] at ran
      split at ran
      · cases ran
      next quiet =>
          simp only [List.findSome?_map, List.findSome?_eq_none_iff] at quiet
          exact quiet

/-- In either schedule a run succeeds with exactly the frames that can be built one by one. -/
theorem run_ok_iff {engine : Engine} {request : RunRequest} {projection : Projection} :
    engine.run request = .ok projection ↔
      engine.Complete request ∧ ∀ year, projection.get? year = engine.frame? request year := by
  rw [← answer_ok_iff]
  obtain ⟨baseline, seed, parallel⟩ := engine
  cases parallel with
  | false => exact iff_of_eq (congrArg (· = _) (run_sequential ⟨baseline, seed, false⟩ request))
  | true =>
      constructor
      · intro ran
        have steady : Steady ⟨baseline, seed, true⟩ request := run_parallel_steady ran
        exact (run_parallel steady).symm.trans ran
      · intro answered
        exact (run_parallel (answer_ok_iff.mp answered).1.steady).trans answered

theorem run_succeeds_iff {engine : Engine} {request : RunRequest} :
    (∃ projection, engine.run request = .ok projection) ↔ engine.Complete request := by
  constructor
  · rintro ⟨projection, ran⟩
    exact (run_ok_iff.mp ran).1
  · intro complete
    obtain ⟨projection, answered⟩ := complete.answered
    exact ⟨projection, run_ok_iff.mpr (answer_ok_iff.mp answered)⟩

/-! ## What a frame depends on -/

section Frames

variable {first second : Engine} {one other : RunRequest} {year : Int}

theorem build_historical_congr (inputs : one.inputs = other.inputs)
    (data : first.baseline.regions? year = second.baseline.regions? year) :
    (first.builder one).buildHistorical year = (second.builder other).buildHistorical year := by
  simp only [FrameBuilder.buildHistorical, builder, inputs, data]

theorem historical_frame_congr (inputs : one.inputs = other.inputs)
    (data : first.baseline.regions? year = second.baseline.regions? year) :
    first.historicalFrame one year = second.historicalFrame other year := by
  simp only [historicalFrame, build_historical_congr inputs data]

/-- The random words of a projected year are those of the seed and the year. -/
theorem projected_frame_congr (inputs : one.inputs = other.inputs) (levers : one.levers = other.levers)
    (seeds : first.seed = second.seed)
    (data : first.baseline.regions? year = second.baseline.regions? year) :
    first.projectedFrame one year = second.projectedFrame other year := by
  have built : (first.builder one).buildProjected year = (second.builder other).buildProjected year := by
    simp only [FrameBuilder.buildProjected, build_historical_congr inputs data]
    simp only [builder, levers]
  simp only [projectedFrame, built, seeds]

end Frames

/-! ## Runs of one range in parts -/

/-- What a run may be given besides the years: none of it reaches a frame. -/
structure Schedule where
  index : Nat
  parallel : Bool

def runOver (engine : Engine) (request : RunRequest) (schedule : Schedule) (range : YearRange) :
    Except (Halt RunFailure) Projection :=
  { engine with parallel := schedule.parallel }.run
    { request with index := schedule.index, projected := range }

theorem run_over_succeeds_iff {engine : Engine} {request : RunRequest} {schedule : Schedule}
    {range : YearRange} :
    (∃ projection, engine.runOver request schedule range = .ok projection) ↔
      (∀ year ∈ request.historical.years, ∃ frame, engine.historicalFrame request year = .ok frame) ∧
        ∀ year ∈ range.years, ∃ frame, engine.projectedFrame request year = .ok frame :=
  run_succeeds_iff.trans
    ⟨fun complete => ⟨complete.historical, complete.projected⟩, fun ⟨copies, built⟩ => ⟨copies, built⟩⟩

theorem run_over_projected {engine : Engine} {request : RunRequest} {schedule : Schedule}
    {range : YearRange} {projection : Projection} {year : Int} (member : year ∈ range.years)
    (ran : engine.runOver request schedule range = .ok projection) :
    ∃ frame, engine.projectedFrame request year = .ok frame ∧ projection.get? year = some frame := by
  obtain ⟨complete, frames⟩ := run_ok_iff.mp ran
  obtain ⟨frame, built⟩ := complete.projected year member
  refine ⟨frame, built, ?_⟩
  rw [frames year, frame?, if_pos member]
  exact congrArg Except.toOption built

/-- Two runs that share inputs, levers and seed agree on every projected year with the same data, and
on a year that is only historical whatever their levers and seeds.  A range of projected years is run
in one piece or in two with the same outcome. -/
theorem years_are_independent :
    (∀ (first second : Engine) (one other : RunRequest) (left right : Projection) (year : Int),
      first.run one = .ok left → second.run other = .ok right → one.inputs = other.inputs →
      first.baseline.regions? year = second.baseline.regions? year →
      (first.seed = second.seed → one.levers = other.levers →
        year ∈ one.projected.years → year ∈ other.projected.years →
        ∃ frame, left.get? year = some frame ∧ right.get? year = some frame) ∧
      (year ∈ one.historical.years → year ∉ one.projected.years →
        year ∈ other.historical.years → year ∉ other.projected.years →
        ∃ frame, left.get? year = some frame ∧ right.get? year = some frame)) ∧
    ∀ (engine : Engine) (request : RunRequest) (whole early late : Schedule) (first split last : Int),
      first ≤ split → split < last →
      ((∃ projection, engine.runOver request whole ⟨first, last⟩ = .ok projection) ↔
        (∃ projection, engine.runOver request early ⟨first, split⟩ = .ok projection) ∧
        ∃ projection, engine.runOver request late ⟨split + 1, last⟩ = .ok projection) ∧
      ∀ all start rest : Projection, engine.runOver request whole ⟨first, last⟩ = .ok all →
        engine.runOver request early ⟨first, split⟩ = .ok start →
        engine.runOver request late ⟨split + 1, last⟩ = .ok rest →
        (∀ year, first ≤ year → year ≤ split →
          ∃ frame, all.get? year = some frame ∧ start.get? year = some frame) ∧
        ∀ year, split < year → year ≤ last →
          ∃ frame, all.get? year = some frame ∧ rest.get? year = some frame := by
  constructor
  · intro first second one other left right year ranLeft ranRight inputs data
    obtain ⟨complete, lefts⟩ := run_ok_iff.mp ranLeft
    obtain ⟨_, rights⟩ := run_ok_iff.mp ranRight
    constructor
    · -- a projected frame is the same as soon as all it is built from is, the seed and the levers included
      intro seeds levers here there
      obtain ⟨frame, built⟩ := complete.projected year here
      have same := projected_frame_congr inputs levers seeds data
      refine ⟨frame, ?_, ?_⟩
      · rw [lefts, frame?, if_pos here, built]
        rfl
      · rw [rights, frame?, if_pos there, ← same, built]
        rfl
    · -- a copied frame is built without either
      intro here apart there otherApart
      obtain ⟨frame, built⟩ := complete.historical year here
      have same := historical_frame_congr inputs data
      refine ⟨frame, ?_, ?_⟩
      · rw [lefts, frame?, if_neg apart, if_pos here, built]
        rfl
      · rw [rights, frame?, if_neg otherApart, if_pos there, ← same, built]
        rfl
  · intro engine request whole early late first split last lower upper
    constructor
    · simp only [run_over_succeeds_iff, YearRange.mem_parts lower upper, or_imp, forall_and]
      exact and_and_left
    · -- each part builds its years from the same request, so it finds the frames of the whole run
      intro all start rest ranAll ranStart ranRest
      have agree : ∀ {schedule : Schedule} {range : YearRange} {part : Projection} {year : Int},
          engine.runOver request schedule range = .ok part → year ∈ range.years →
          year ∈ (YearRange.mk first last).years →
          ∃ frame, all.get? year = some frame ∧ part.get? year = some frame := by
        intro schedule range part year ranPart inside member
        obtain ⟨frame, built, found⟩ := run_over_projected member ranAll
        obtain ⟨again, rebuilt, present⟩ := run_over_projected inside ranPart
        obtain rfl : frame = again := Except.ok.inj (built.symm.trans rebuilt)
        exact ⟨frame, found, present⟩
      have parts := YearRange.mem_parts lower upper
      constructor
      · intro year above below
        have inside : year ∈ (YearRange.mk first split).years := YearRange.mem_years.mpr ⟨above, below⟩
        exact agree ranStart inside ((parts year).mpr (.inl inside))
      · intro year above below
        have inside : year ∈ (YearRange.mk (split + 1) last).years :=
          YearRange.mem_years.mpr ⟨Int.add_one_le_of_lt above, below⟩
        exact agree ranRest inside ((parts year).mpr (.inr inside))

def noiseLever : CompiledLever :=
  ⟨"noise", 0, ⟨[.assign (.parse "out.china.eolRecyclingMT")
    (.uniform (.number 0.0) (.read (.parse "in.rate")))], 10⟩⟩

/-- Draws in two projected years; the years before the second are historical only. -/
def noiseRequest : RunRequest := ⟨1, ⟨2020, 2021⟩, ⟨2022, 2023⟩, [noiseLever], .ofList [("rate", 2.0)]⟩

theorem noise_run_succeeds (schedule : Schedule) (range : YearRange)
    (inside : ∀ year ∈ range.years, year ∈ noiseRequest.projected.years) :
    ∃ projection, rampEngine.runOver noiseRequest schedule range = .ok projection := by
  have copies : ∀ year ∈ noiseRequest.historical.years,
      (rampEngine.historicalFrame noiseRequest year).toOption.isSome = true := by decide +kernel
  have built : ∀ year ∈ noiseRequest.projected.years,
      (rampEngine.projectedFrame noiseRequest year).toOption.isSome = true := by decide +kernel
  rw [run_over_succeeds_iff]
  constructor
  · intro year member
    have found := copies year member
    cases frame : rampEngine.historicalFrame noiseRequest year with
    | ok state => exact ⟨state, rfl⟩
    | error error => simp [frame, Except.toOption] at found
  · intro year member
    have found := built year (inside year member)
    cases frame : rampEngine.projectedFrame noiseRequest year with
    | ok state => exact ⟨state, rfl⟩
    | error halt => simp [frame, Except.toOption] at found

theorem noise_run_in_parts :
    (∃ (all rest : Projection) (projected historical : State),
      rampEngine.runOver noiseRequest ⟨1, true⟩ ⟨2022, 2023⟩ = .ok all ∧
      rampEngine.runOver noiseRequest ⟨2, false⟩ ⟨2023, 2023⟩ = .ok rest ∧
      all.get? 2023 = some projected ∧ rest.get? 2023 = some projected ∧
      all.get? 2020 = some historical ∧ rest.get? 2020 = some historical) ∧
    ∃ (all start : Projection) (frame : State),
      rampEngine.runOver noiseRequest ⟨1, true⟩ ⟨2022, 2023⟩ = .ok all ∧
      rampEngine.runOver noiseRequest ⟨3, false⟩ ⟨2022, 2022⟩ = .ok start ∧
      all.get? 2022 = some frame ∧ start.get? 2022 = some frame := by
  obtain ⟨shared, parts⟩ := years_are_independent
  obtain ⟨all, ranAll⟩ := noise_run_succeeds ⟨1, true⟩ ⟨2022, 2023⟩ (by decide)
  obtain ⟨start, ranStart⟩ := noise_run_succeeds ⟨3, false⟩ ⟨2022, 2022⟩ (by decide)
  obtain ⟨rest, ranRest⟩ := noise_run_succeeds ⟨2, false⟩ ⟨2023, 2023⟩ (by decide)
  constructor
  · obtain ⟨projected, _⟩ := shared _ _ _ _ all rest 2023 ranAll ranRest rfl rfl
    obtain ⟨_, historical⟩ := shared _ _ _ _ all rest 2020 ranAll ranRest rfl rfl
    obtain ⟨frame, found, again⟩ := projected rfl rfl (by decide) (by decide)
    obtain ⟨copy, present, same⟩ := historical (by decide) (by decide) (by decide) (by decide)
    exact ⟨all, rest, frame, copy, ranAll, ranRest, found, again, present, same⟩
  · obtain ⟨_, agree⟩ := parts rampEngine noiseRequest ⟨1, true⟩ ⟨3, false⟩ ⟨2, false⟩ 2022 2022 2023
      (by decide) (by decide)
    obtain ⟨frame, found, again⟩ := (agree all start rest ranAll ranStart ranRest).1 2022 (by decide) (by decide)
    exact ⟨all, start, frame, ranAll, ranStart, found, again⟩

end Engine

end PolicyLevers
