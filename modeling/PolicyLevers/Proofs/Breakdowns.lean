import PolicyLevers.Projection.WorkerSystem
import PolicyLevers.Proofs.EarliestFailure
import PolicyLevers.Proofs.EvaluatedParts
import PolicyLevers.Proofs.UniformWidths

/-!
# How runs break down

A run ends well or with a failure of its script, unless one of the draws it evaluates breaks down.  A
uniform draw does so if its bounds are in order and the width between them is the largest double or the
one before it, a normal draw if all its candidates are rejected.  Nothing else in a script can.
-/

namespace PolicyLevers

set_option autoImplicit false

open Running

/-! ## Broken draws -/

/-- A draw that breaks down where it is evaluated, for the values that its operands have there. -/
inductive BrokenDraw (repeatLimit : Nat) : Visit → SamplerFault → Prop where
  | uniform {place : List PlaceStep} {low high : Expression} {state : State}
      {source middle after : Random.WordSource} {lowValue highValue : Float}
      (lowDone : low.evaluate repeatLimit state source = .ok lowValue middle)
      (highDone : high.evaluate repeatLimit state middle = .ok highValue after)
      (ordered : lowValue ≤ highValue) (wide : Random.Uniform.Overwide (highValue - lowValue)) :
      BrokenDraw repeatLimit ⟨place, .uniform low high, ⟨state, source⟩⟩ .intervalTooWide
  | normal {place : List PlaceStep} {mean deviation : Expression} {state : State}
      {source middle after : Random.WordSource} {meanValue deviationValue : Float}
      (meanDone : mean.evaluate repeatLimit state source = .ok meanValue middle)
      (deviationDone : deviation.evaluate repeatLimit state middle = .ok deviationValue after)
      (finite : deviationValue.isFinite = true) (positive : deviationValue ≥ 0.0)
      (rejected : Random.Normal.standard Random.Normal.candidateLimit after = none) :
      BrokenDraw repeatLimit ⟨place, .normal mean deviation, ⟨state, source⟩⟩ .candidatesExhausted

def Broken (repeatLimit : Nat) (visits : List Visit) (fault : SamplerFault) : Prop :=
  ∃ visit ∈ visits, BrokenDraw repeatLimit visit fault

section Visits

variable {repeatLimit : Nat} {fault : SamplerFault}

theorem broken_nil : Broken repeatLimit [] fault ↔ False := by
  simp [Broken]

theorem broken_cons {visit : Visit} {visits : List Visit} :
    Broken repeatLimit (visit :: visits) fault ↔
      BrokenDraw repeatLimit visit fault ∨ Broken repeatLimit visits fault := by
  simp [Broken]

theorem broken_append {visits others : List Visit} :
    Broken repeatLimit (visits ++ others) fault ↔
      Broken repeatLimit visits fault ∨ Broken repeatLimit others fault := by
  simp [Broken, or_and_right, exists_or]

theorem broken_draw_moved {place other : List PlaceStep} {part : Expression} {world : World} :
    BrokenDraw repeatLimit ⟨place, part, world⟩ fault ↔ BrokenDraw repeatLimit ⟨other, part, world⟩ fault := by
  constructor <;> rintro (⟨first, second, ordered, wide⟩ | ⟨first, second, finite, positive, rejected⟩)
  · exact .uniform first second ordered wide
  · exact .normal first second finite positive rejected
  · exact .uniform first second ordered wide
  · exact .normal first second finite positive rejected

theorem broken_under {step : PlaceStep} {visits : List Visit} :
    Broken repeatLimit (under step visits) fault ↔ Broken repeatLimit visits fault := by
  simp only [Broken, under, List.mem_map, exists_exists_and_eq_and]
  exact exists_congr fun visit => and_congr_right fun _ => broken_draw_moved

theorem broken_onward {ε σ α : Type} {computation : EStateM ε σ α} {later : α → σ → List Visit}
    {start : σ} :
    Broken repeatLimit (onward computation later start) fault ↔
      ∃ value after, computation start = .ok value after ∧ Broken repeatLimit (later value after) fault := by
  unfold onward
  cases computation start with
  | ok value after => simp
  | error halt after => simp [broken_nil]

end Visits

/-! ## Breakdowns of computations -/

def Breaks {ε σ α : Type} (computation : EStateM (Halt ε) σ α) (start : σ) (fault : SamplerFault) : Prop :=
  ∃ after, computation start = .error (.breakdown fault) after

section Computations

variable {σ α β : Type} {repeatLimit : Nat} {fault : SamplerFault}

theorem breaks_bind {first : EStateM (Halt RuntimeError) σ α}
    {next : α → EStateM (Halt RuntimeError) σ β} {start : σ} :
    Breaks (first >>= next) start fault ↔
      Breaks first start fault ∨
        ∃ value after, first start = .ok value after ∧ Breaks (next value) after fault := by
  have unfolded : (first >>= next) start = EStateM.bind first next start := rfl
  simp only [Breaks, unfolded, EStateM.bind]
  cases first start with
  | ok value after => simp
  | error halt after => simp

def Unbroken (computation : EStateM (Halt RuntimeError) σ α) : Prop :=
  ∀ start fault, ¬Breaks computation start fault

/-- The computation ends in a breakdown exactly if one of its visits is at a draw that does. -/
def Traced (repeatLimit : Nat) (computation : EStateM (Halt RuntimeError) σ α)
    (visits : σ → List Visit) : Prop :=
  ∀ start fault, Breaks computation start fault ↔ Broken repeatLimit (visits start) fault

theorem unbroken_pure (value : α) : Unbroken (pure value : EStateM (Halt RuntimeError) σ α) := by
  rintro start fault ⟨after, failed⟩
  cases failed

theorem unbroken_failure (error : RuntimeError) :
    Unbroken (throw (.failure error) : EStateM (Halt RuntimeError) σ α) := by
  rintro start fault ⟨after, failed⟩
  cases failed

theorem Unbroken.bind {first : EStateM (Halt RuntimeError) σ α}
    {next : α → EStateM (Halt RuntimeError) σ β} (here : Unbroken first)
    (later : ∀ value, Unbroken (next value)) : Unbroken (first >>= next) := by
  intro start fault breaks
  rcases breaks_bind.mp breaks with failed | ⟨value, after, _, failed⟩
  · exact here start fault failed
  · exact later value after fault failed

theorem Unbroken.traced {computation : EStateM (Halt RuntimeError) σ α} (unbroken : Unbroken computation) :
    Traced repeatLimit computation (fun _ => []) :=
  fun start fault => iff_of_false (unbroken start fault) broken_nil.mp

theorem Traced.bind {first : EStateM (Halt RuntimeError) σ α}
    {next : α → EStateM (Halt RuntimeError) σ β} {visits : σ → List Visit} {later : α → σ → List Visit}
    (here : Traced repeatLimit first visits) (rest : ∀ value, Traced repeatLimit (next value) (later value)) :
    Traced repeatLimit (first >>= next) (fun start => visits start ++ onward first later start) := by
  intro start fault
  rw [breaks_bind, broken_append, broken_onward, here start fault]
  exact or_congr_right (exists_congr fun value => exists_congr fun after =>
    and_congr_right fun _ => rest value after fault)

theorem Unbroken.then {first : EStateM (Halt RuntimeError) σ α}
    {next : α → EStateM (Halt RuntimeError) σ β} {later : α → σ → List Visit} (here : Unbroken first)
    (rest : ∀ value, Traced repeatLimit (next value) (later value)) :
    Traced repeatLimit (first >>= next) (onward first later) :=
  here.traced.bind rest

theorem Traced.finish {first : EStateM (Halt RuntimeError) σ α}
    {next : α → EStateM (Halt RuntimeError) σ β} {visits : σ → List Visit}
    (here : Traced repeatLimit first visits) (rest : ∀ value, Unbroken (next value)) :
    Traced repeatLimit (first >>= next) visits := by
  intro start fault
  rw [breaks_bind, here start fault]
  exact or_iff_left (fun ⟨value, after, _, failed⟩ => rest value after fault failed)

theorem Traced.under {computation : EStateM (Halt RuntimeError) σ α} {visits : σ → List Visit}
    (traced : Traced repeatLimit computation visits) (step : PlaceStep) :
    Traced repeatLimit computation (fun start => PolicyLevers.under step (visits start)) :=
  fun start fault => (traced start fault).trans broken_under.symm

end Computations

/-! ## Expressions -/

theorem unbroken_of_except {α : Type} (result : Except RuntimeError α) :
    Unbroken (Drawing.ofExcept result) := by
  cases result with
  | ok value => exact unbroken_pure value
  | error error => exact unbroken_failure error

theorem sampler_breaks {α : Type} {reason fault : SamplerFault}
    {sample : Random.WordSource → Option (α × Random.WordSource)} {source : Random.WordSource} :
    Breaks (Drawing.ofSampler reason sample) source fault ↔ fault = reason ∧ sample source = none := by
  unfold Breaks Drawing.ofSampler
  cases sample source with
  | some drawn => simp
  | none => simp [eq_comm]

theorem uniform_breaks {low high : Float} {source : Random.WordSource} {fault : SamplerFault} :
    Breaks (drawUniform low high) source fault ↔
      fault = .intervalTooWide ∧ low ≤ high ∧ Random.Uniform.Overwide (high - low) := by
  unfold drawUniform
  by_cases guarded : low ≤ high ∧ (high - low).isFinite = true
  · rw [if_pos (by simpa using guarded), sampler_breaks, Random.Uniform.draw, Option.map_eq_none_iff,
      Random.Uniform.scale_missing guarded.1 guarded.2]
    exact and_congr_right fun _ => (and_iff_right guarded.1).symm
  · rw [if_neg (by simpa using guarded)]
    refine iff_of_false (unbroken_failure _ source fault) ?_
    rintro ⟨_, ordered, wide⟩
    exact guarded ⟨ordered, Random.Uniform.overwide_finite wide⟩

theorem normal_breaks {mean deviation : Float} {source : Random.WordSource} {fault : SamplerFault} :
    Breaks (drawNormal mean deviation) source fault ↔
      fault = .candidatesExhausted ∧ deviation.isFinite = true ∧ deviation ≥ 0.0 ∧
        Random.Normal.standard Random.Normal.candidateLimit source = none := by
  unfold drawNormal
  by_cases guarded : deviation.isFinite = true ∧ deviation ≥ 0.0
  · rw [if_pos (by simpa using guarded), sampler_breaks, Random.Normal.draw, Option.map_eq_none_iff]
    exact and_congr_right fun _ => ⟨fun rejected => ⟨guarded.1, guarded.2, rejected⟩, fun all => all.2.2⟩
  · rw [if_neg (by simpa using guarded)]
    refine iff_of_false (unbroken_failure _ source fault) ?_
    rintro ⟨_, finite, positive, _⟩
    exact guarded ⟨finite, positive⟩

section Operands

variable {repeatLimit : Nat} {first second : Drawing Float}
  {firstVisits secondVisits : Random.WordSource → List Visit} {next : Float → Float → Drawing Float}

theorem operands_traced {further : Float → Float → Random.WordSource → List Visit}
    (here : Traced repeatLimit first firstVisits) (there : Traced repeatLimit second secondVisits)
    (rest : ∀ firstValue secondValue,
      Traced repeatLimit (next firstValue secondValue) (further firstValue secondValue)) :
    Traced repeatLimit (first >>= fun firstValue => second >>= next firstValue)
      (operandVisits first second firstVisits secondVisits further) :=
  (here.under .first).bind fun firstValue =>
    (there.under .second).bind fun secondValue => rest firstValue secondValue

/-- A draw breaks while its operands are evaluated, or with their values. -/
theorem draw_traced {root : Random.WordSource → Visit} (here : Traced repeatLimit first firstVisits)
    (there : Traced repeatLimit second secondVisits)
    (own : ∀ source fault, BrokenDraw repeatLimit (root source) fault ↔
      ∃ firstValue middle, first source = .ok firstValue middle ∧
        ∃ secondValue after, second middle = .ok secondValue after ∧
          Breaks (next firstValue secondValue) after fault) :
    Traced repeatLimit (first >>= fun firstValue => second >>= next firstValue)
      (fun source => root source ::
        operandVisits first second firstVisits secondVisits (fun _ _ _ => []) source) := by
  intro source fault
  have nothing : ∀ value, Traced repeatLimit (pure value : Drawing Float) (fun _ => []) :=
    fun value => (unbroken_pure value).traced
  have operands := operands_traced here there (fun firstValue _ => nothing firstValue) source fault
  rw [broken_cons, own, ← operands]
  simp only [breaks_bind, unbroken_pure _ _ fault, and_false, exists_false, or_false]
  constructor
  · rintro (failed | ⟨firstValue, middle, found, failed | broken⟩)
    · exact .inr (.inl failed)
    · exact .inr (.inr ⟨firstValue, middle, found, failed⟩)
    · exact .inl ⟨firstValue, middle, found, broken⟩
  · rintro (⟨firstValue, middle, found, broken⟩ | failed | ⟨firstValue, middle, found, failed⟩)
    · exact .inr ⟨firstValue, middle, found, .inr broken⟩
    · exact .inl failed
    · exact .inr ⟨firstValue, middle, found, .inl failed⟩

end Operands

theorem uniform_broken {repeatLimit : Nat} {place : List PlaceStep} {low high : Expression} {state : State}
    (source : Random.WordSource) (fault : SamplerFault) :
    BrokenDraw repeatLimit ⟨place, .uniform low high, ⟨state, source⟩⟩ fault ↔
      ∃ lowValue middle, low.evaluate repeatLimit state source = .ok lowValue middle ∧
        ∃ highValue after, high.evaluate repeatLimit state middle = .ok highValue after ∧
          Breaks (drawUniform lowValue highValue) after fault := by
  simp only [uniform_breaks]
  constructor
  · rintro ⟨lowDone, highDone, ordered, wide⟩
    exact ⟨_, _, lowDone, _, _, highDone, rfl, ordered, wide⟩
  · rintro ⟨_, _, lowDone, _, _, highDone, rfl, ordered, wide⟩
    exact .uniform lowDone highDone ordered wide

theorem normal_broken {repeatLimit : Nat} {place : List PlaceStep} {mean deviation : Expression}
    {state : State} (source : Random.WordSource) (fault : SamplerFault) :
    BrokenDraw repeatLimit ⟨place, .normal mean deviation, ⟨state, source⟩⟩ fault ↔
      ∃ meanValue middle, mean.evaluate repeatLimit state source = .ok meanValue middle ∧
        ∃ deviationValue after, deviation.evaluate repeatLimit state middle = .ok deviationValue after ∧
          Breaks (drawNormal meanValue deviationValue) after fault := by
  simp only [normal_breaks]
  constructor
  · rintro (_ | ⟨meanDone, deviationDone, finite, positive, rejected⟩)
    exact ⟨_, _, meanDone, _, _, deviationDone, rfl, finite, positive, rejected⟩
  · rintro ⟨_, _, meanDone, _, _, deviationDone, rfl, finite, positive, rejected⟩
    exact .normal meanDone deviationDone finite positive rejected

theorem accumulate_traced {repeatLimit : Nat} {body : Drawing Float}
    {visits : Random.WordSource → List Visit} (traced : Traced repeatLimit body visits)
    (reducer : Script.Reducer) (count : Nat) (total : Float) :
    Traced repeatLimit (accumulate reducer body count total) (repeatVisits body visits count) := by
  induction count generalizing total with
  | zero => exact (unbroken_pure total).traced
  | succ count ih => exact traced.bind fun value => ih (reducer.step total value)

theorem Traced.cons {α : Type} {repeatLimit : Nat} {computation : Drawing α}
    {visits : Random.WordSource → List Visit} (traced : Traced repeatLimit computation visits)
    {root : Random.WordSource → Visit}
    (whole : ∀ source fault, ¬BrokenDraw repeatLimit (root source) fault) :
    Traced repeatLimit computation (fun source => root source :: visits source) := by
  intro source fault
  rw [traced source fault, broken_cons]
  exact (or_iff_right (whole source fault)).symm

theorem evaluate_traced (repeatLimit : Nat) (state : State) (expression : Expression) :
    Traced repeatLimit (expression.evaluate repeatLimit state) (expression.visits repeatLimit state) := by
  -- at their own visit only the two kinds of draws can break
  induction expression with
  | number value => exact (unbroken_pure value).traced.cons (fun _ _ broken => nomatch broken)
  | read path => exact (unbroken_of_except _).traced.cons (fun _ _ broken => nomatch broken)
  | lifecycle query => exact (unbroken_of_except _).traced.cons (fun _ _ broken => nomatch broken)
  | binary op left right leftTraced rightTraced =>
      refine Traced.cons ?_ (fun _ _ broken => nomatch broken)
      exact operands_traced leftTraced rightTraced (fun _ _ => (unbroken_pure _).traced)
  | conditional test left right consequent alternative leftTraced rightTraced consequentTraced
      alternativeTraced =>
      refine Traced.cons ?_ (fun _ _ broken => nomatch broken)
      refine operands_traced leftTraced rightTraced (fun leftValue rightValue => ?_)
      by_cases holds : test.holds leftValue rightValue = true
      · simp only [holds, if_true]
        exact consequentTraced.under .consequent
      · simp only [holds]
        exact alternativeTraced.under .alternative
  | uniform low high lowTraced highTraced =>
      exact draw_traced lowTraced highTraced uniform_broken
  | normal mean deviation meanTraced deviationTraced =>
      exact draw_traced meanTraced deviationTraced normal_broken
  | repeated reducer count body countTraced bodyTraced =>
      refine Traced.cons ?_ (fun _ _ broken => nomatch broken)
      refine (countTraced.under .first).bind (fun countValue => ?_)
      cases repetitions? repeatLimit countValue with
      | none => exact (unbroken_failure _).traced
      | some repetitions =>
          refine Traced.finish ?_ (fun total => unbroken_pure _)
          exact (accumulate_traced bodyTraced reducer repetitions reducer.start).under .second

/-! ## Programs -/

section Run

variable {repeatLimit : Nat}

theorem reading_breaks {α : Type} {read : State → Drawing α} {world : World} {fault : SamplerFault} :
    Breaks (reading read) world fault ↔ Breaks (read world.state) world.source fault := by
  unfold Breaks reading
  cases read world.state world.source with
  | ok value source => simp
  | error halt source => simp

theorem unbroken_reading {α : Type} (result : State → Except RuntimeError α) :
    Unbroken (reading (fun state => .ofExcept (result state))) :=
  fun world fault breaks => unbroken_of_except (result world.state) world.source fault
    (reading_breaks.mp breaks)

theorem unbroken_writing (write : State → Except RuntimeError State) : Unbroken (writing write) := by
  rintro world fault ⟨after, failed⟩
  unfold writing at failed
  split at failed <;> cases failed

theorem unbroken_get (path : Path) : Unbroken (Running.get path) := unbroken_reading _

theorem unbroken_set (path : Path) (value : Float) : Unbroken (Running.set path value) :=
  unbroken_writing _

theorem compute_traced (expression : Expression) (step : PlaceStep) :
    Traced repeatLimit (expression.compute repeatLimit) (expression.visitsAs repeatLimit step) :=
  fun world fault => reading_breaks.trans
    (((evaluate_traced repeatLimit world.state expression).under step) world.source fault)

theorem evaluate_optional_traced (expression : Option Expression) (step : PlaceStep) :
    Traced repeatLimit (evaluateOptional repeatLimit expression)
      (optionalVisits repeatLimit step expression) := by
  cases expression with
  | none => exact (unbroken_pure none).traced
  | some expression => exact (compute_traced expression step).finish fun value => unbroken_pure _

theorem weigh_traced (before : Float) (weight : Option Expression) (step : PlaceStep) :
    Traced repeatLimit (weigh repeatLimit before weight) (optionalVisits repeatLimit step weight) := by
  cases weight with
  | none => exact (unbroken_pure before).traced
  | some weight => exact compute_traced weight step

theorem read_portions_traced (index : Nat) (targets : List (Path × Option Expression)) :
    Traced repeatLimit (readPortions repeatLimit targets) (portionVisits repeatLimit index targets) := by
  induction targets generalizing index with
  | nil => exact (unbroken_pure []).traced
  | cons target rest ih =>
      obtain ⟨path, weight⟩ := target
      rw [read_portions_cons]
      refine (unbroken_get path).then (fun before => ?_)
      refine (weigh_traced before weight (.weight index)).bind (fun _ => ?_)
      exact (ih (index + 1)).finish fun portions => unbroken_pure _

theorem unbroken_write_portions (amount : Float) (shareOf : Portion → Float) (portions : List Portion) :
    Unbroken (writePortions amount shareOf portions) := by
  induction portions with
  | nil => exact unbroken_pure ()
  | cons portion rest ih =>
      rw [write_portions_cons]
      split
      · exact (unbroken_set _ _).bind fun _ => ih
      · exact ih

theorem instruction_traced (instruction : Instruction) :
    Traced repeatLimit (instruction.run repeatLimit) (instruction.visits repeatLimit) := by
  cases instruction with
  | define name value => exact (compute_traced value .value).finish fun _ => unbroken_writing _
  | assign target value => exact (compute_traced value .value).finish fun _ => unbroken_writing _
  | inspect label value => exact (compute_traced value .value).finish fun _ => unbroken_writing _
  | limit target lower upper =>
      refine (evaluate_optional_traced lower .lower).bind (fun low => ?_)
      refine (evaluate_optional_traced upper .upper).finish (fun high => ?_)
      exact (unbroken_get target).bind fun current => unbroken_set target _
  | distribute value targets split =>
      refine (compute_traced value .value).bind (fun amount => ?_)
      by_cases small : amount.abs < distributeThreshold
      · simp only [small, if_true]
        exact (unbroken_pure ()).traced
      · simp only [small, if_false]
        exact (read_portions_traced 0 targets).finish fun portions => unbroken_write_portions _ _ _
  | change target delta start finish =>
      refine (compute_traced delta .delta).bind (fun deltaValue => ?_)
      refine (compute_traced start .start).bind (fun startValue => ?_)
      refine (compute_traced finish .finish).finish (fun finishValue => ?_)
      by_cases ordered : startValue < finishValue
      · simp only [ordered, if_true]
        refine (unbroken_reading State.year).bind (fun year => ?_)
        exact (unbroken_get target).bind fun current => unbroken_set target _
      · simp only [ordered, if_false]
        exact unbroken_failure _

theorem run_all_traced (index : Nat) (instructions : List Instruction) :
    Traced repeatLimit (runAll repeatLimit instructions) (runVisits repeatLimit index instructions) := by
  induction instructions generalizing index with
  | nil => exact (unbroken_pure ()).traced
  | cons instruction rest ih =>
      exact ((instruction_traced instruction).under (.instruction index)).bind fun _ => ih (index + 1)

theorem run_traced (program : Program) : Traced program.repeatLimit program.run program.visits :=
  run_all_traced 0 program.instructions

end Run

/-! ## Engines -/

/-- The runs of levers one after another, each with the world it starts in. -/
def FrameBuilder.leverRuns : List CompiledLever → State → Random.WordSource → List (CompiledLever × World)
  | [], _, _ => []
  | lever :: rest, state, source =>
    (lever, ⟨state.resetScratch, source⟩) ::
      match lever.program.run ⟨state.resetScratch, source⟩ with
      | .ok _ world => leverRuns rest world.state world.source
      | .error _ _ => []

theorem apply_levers_breaks {year : Int} {levers : List CompiledLever} {state : State}
    {source : Random.WordSource} {fault : SamplerFault} :
    Breaks (FrameBuilder.applyLevers year levers state) source fault ↔
      ∃ entry ∈ FrameBuilder.leverRuns levers state source, Breaks entry.1.program.run entry.2 fault := by
  induction levers generalizing state source with
  | nil => simp [Breaks, FrameBuilder.applyLevers, FrameBuilder.leverRuns, pure, EStateM.pure]
  | cons lever rest ih =>
      simp only [Breaks, FrameBuilder.applyLevers, FrameBuilder.leverRuns, List.exists_mem_cons_iff]
      cases ran : lever.program.run ⟨state.resetScratch, source⟩ with
      | ok _ world =>
          simp only [reduceCtorEq, exists_false, false_or]
          exact ih
      | error reason world =>
          cases reason with
          | failure error => simp [Halt.map]
          | breakdown other => simp [Halt.map]

theorem Projection.add_years_error {ε : Type} {build : Int → Except ε State} {projection : Projection}
    {years : List Int} {error : ε} (failed : Projection.addYears build projection years = .error error) :
    ∃ year ∈ years, build year = .error error := by
  induction years generalizing projection with
  | nil => cases failed
  | cons year rest ih =>
      simp only [Projection.addYears] at failed
      cases built : build year with
      | error reason =>
          rw [built] at failed
          cases failed
          exact ⟨year, List.mem_cons_self, built⟩
      | ok frame =>
          rw [built] at failed
          obtain ⟨later, member, found⟩ := ih failed
          exact ⟨later, List.mem_cons_of_mem year member, found⟩

namespace Engine

def leverRuns (engine : Engine) (request : RunRequest) (year : Int) : List (CompiledLever × World) :=
  match (engine.builder request).buildHistorical year with
  | .ok state => FrameBuilder.leverRuns request.levers state (yearSource engine.seed year)
  | .error _ => []

theorem projected_frame_breaks {engine : Engine} {request : RunRequest} {year : Int}
    {fault : SamplerFault} :
    engine.projectedFrame request year = .error (.breakdown fault) ↔
      ∃ entry ∈ engine.leverRuns request year, Breaks entry.1.program.run entry.2 fault := by
  have outcome : engine.projectedFrame request year = .error (.breakdown fault) ↔
      Breaks ((engine.builder request).buildProjected year) (yearSource engine.seed year) fault := by
    unfold projectedFrame Breaks
    cases (engine.builder request).buildProjected year (yearSource engine.seed year) <;> simp
  rw [outcome]
  unfold FrameBuilder.buildProjected leverRuns
  cases (engine.builder request).buildHistorical year with
  | error error => simp [Breaks, throw, throwThe, MonadExceptOf.throw, EStateM.throw]
  | ok state => exact apply_levers_breaks

theorem map_error_breakdown {ε δ α : Type} {result : Except (Halt ε) α} {change : ε → δ}
    {fault : SamplerFault} (broke : result.mapError (Halt.map change) = .error (.breakdown fault)) :
    result = .error (.breakdown fault) := by
  rcases result with (error | other) | value
  · cases broke
  · cases broke
    rfl
  · cases broke

theorem add_together_breaks {engine : Engine} {request : RunRequest} {projection : Projection}
    {years : List Int} {fault : SamplerFault}
    (broke : engine.addTogether request projection years = .error (.breakdown fault)) :
    ∃ year ∈ years, engine.projectedFrame request year = .error (.breakdown fault) := by
  unfold addTogether at broke
  dsimp only at broke
  split at broke
  next other found =>
      -- a year that breaks down is found before any frame is merged
      cases broke
      obtain ⟨entry, member, broken⟩ := List.exists_of_findSome?_eq_some found
      obtain ⟨year, inside, rfl⟩ := List.mem_map.mp member
      unfold breakdown? at broken
      split at broken
      next failed =>
          cases broken
          exact ⟨year, inside, failed⟩
      · cases broken
  · rw [merge_outcomes_eq] at broke
    exact Projection.add_years_error broke

theorem run_breaks {engine : Engine} {request : RunRequest} {fault : SamplerFault}
    (broke : engine.run request = .error (.breakdown fault)) :
    ∃ year ∈ request.projected.years, engine.projectedFrame request year = .error (.breakdown fault) := by
  unfold run at broke
  split at broke
  · cases broke
  next projection copied =>
      have inner := map_error_breakdown broke
      split at inner
      · exact add_together_breaks inner
      · rw [add_in_order_eq] at inner
        exact Projection.add_years_error inner

theorem panic_in_run {engine : Engine} {request : RunRequest} {index : Nat} {message : String}
    (panicked : (engine.respond request).outcome = .error (.panicked index message)) :
    ∃ fault, engine.run request = .error (.breakdown fault) ∧ message = fault.message := by
  unfold respond at panicked
  dsimp only at panicked
  split at panicked
  · cases panicked
  · cases panicked
  next fault broke =>
      cases panicked
      exact ⟨fault, broke, rfl⟩

end Engine

/-- A run ends well or with a failure unless it evaluates a draw that breaks down, and then it breaks
down with that draw.  An engine reports a panic only for such a draw, evaluated by a lever in a projected
year. -/
theorem runs_break_in_draws (program : Program) (world : World) (engine : Engine)
    (request : RunRequest) :
    (∀ fault, (∃ after, program.run world = .error (.breakdown fault) after) ↔
      ∃ visit ∈ program.visits world, BrokenDraw program.repeatLimit visit fault) ∧
    ((∀ visit ∈ program.visits world, ∀ fault, ¬BrokenDraw program.repeatLimit visit fault) →
      (∃ after, program.run world = .ok () after) ∨
        ∃ error after, program.run world = .error (.failure error) after) ∧
    ∀ index message, (engine.respond request).outcome = .error (.panicked index message) →
      ∃ year ∈ request.projected.years, ∃ entry ∈ engine.leverRuns request year,
        ∃ visit ∈ entry.1.program.visits entry.2, ∃ fault,
          BrokenDraw entry.1.program.repeatLimit visit fault ∧ message = fault.message := by
  refine ⟨run_traced program world, fun whole => ?_, fun index message panicked => ?_⟩
  · cases outcome : program.run world with
    | ok _ after => exact .inl ⟨after, rfl⟩
    | error halt after =>
        cases halt with
        | failure error => exact .inr ⟨error, after, rfl⟩
        | breakdown fault =>
            obtain ⟨visit, member, broken⟩ := (run_traced program world fault).mp ⟨after, outcome⟩
            exact absurd broken (whole visit member fault)
  · obtain ⟨fault, broke, text⟩ := Engine.panic_in_run panicked
    obtain ⟨year, inside, failed⟩ := Engine.run_breaks broke
    obtain ⟨entry, member, breaks⟩ := Engine.projected_frame_breaks.mp failed
    obtain ⟨visit, visited, broken⟩ := (run_traced entry.1.program entry.2 fault).mp breaks
    exact ⟨year, inside, entry, member, visit, visited, fault, broken, text⟩

def widestScript : String := "x = draw uniformly from 0 to 1.7976931348623157e308;"

def widestProgram : Program :=
  ⟨[.assign (.parse "x") (.uniform (.number 0.0) (.number (Float.ofBits 0x7FEFFFFFFFFFFFFF)))], 10000⟩

def widestWorld : World := ⟨.forYear 2030, .cycle [3, 5, 7]⟩

/-- One projected year with the draw as its only lever. -/
def widestRequest : RunRequest := ⟨3, ⟨2020, 2020⟩, ⟨2021, 2021⟩, [⟨"widest", 0, widestProgram⟩], ∅⟩

def panic? (response : RunResponse) : Option String :=
  match response.outcome with
  | .error (.panicked _ message) => some message
  | _ => none

/-- The bounds pass the test in front of the sampler, and the sampler breaks down. -/
theorem widest_draw_panics :
    compile {} widestScript = .program widestProgram ∧
    (∃ after, widestProgram.run widestWorld = .error (.breakdown .intervalTooWide) after) ∧
    panic? (Engine.rampEngine.respond widestRequest) = some "Uniform::new_inclusive: range overflow" := by
  refine ⟨by decide +kernel, ⟨widestWorld, ?_⟩, by decide +kernel⟩
  rfl

def narrowProgram : Program := ⟨[.assign (.parse "x") (.uniform (.number 0.0) (.number 1.0))], 10000⟩

def finished : EStateM.Result (Halt RuntimeError) World Unit → Bool
  | .ok _ _ => true
  | .error _ _ => false

theorem widest_draw_is_found :
    (∃ visit ∈ widestProgram.visits widestWorld,
      BrokenDraw widestProgram.repeatLimit visit .intervalTooWide) ∧
    (∃ year ∈ widestRequest.projected.years, ∃ entry ∈ Engine.rampEngine.leverRuns widestRequest year,
      ∃ visit ∈ entry.1.program.visits entry.2, ∃ fault,
        BrokenDraw entry.1.program.repeatLimit visit fault ∧
          "Uniform::new_inclusive: range overflow" = fault.message) ∧
    (∀ visit ∈ narrowProgram.visits widestWorld, ∀ fault,
      ¬BrokenDraw narrowProgram.repeatLimit visit fault) ∧
    ((∃ after, narrowProgram.run widestWorld = .ok () after) ∨
      ∃ error after, narrowProgram.run widestWorld = .error (.failure error) after) := by
  obtain ⟨found, _, panics⟩ :=
    runs_break_in_draws widestProgram widestWorld Engine.rampEngine widestRequest
  obtain ⟨quiet, ends, _⟩ :=
    runs_break_in_draws narrowProgram widestWorld Engine.rampEngine widestRequest
  have broke : ∃ after, widestProgram.run widestWorld = .error (.breakdown .intervalTooWide) after :=
    ⟨widestWorld, rfl⟩
  have panicked : (Engine.rampEngine.respond widestRequest).outcome =
      .error (.panicked 3 "Uniform::new_inclusive: range overflow") := by
    decide +kernel
  have whole : ∀ visit ∈ narrowProgram.visits widestWorld, ∀ fault,
      ¬BrokenDraw narrowProgram.repeatLimit visit fault := by
    intro visit member fault broken
    obtain ⟨after, failed⟩ := (quiet fault).mpr ⟨visit, member, broken⟩
    have done : finished (narrowProgram.run widestWorld) = true := by decide +kernel
    rw [failed] at done
    cases done
  exact ⟨(found _).mp broke, panics _ _ panicked, whole, ends whole⟩

end PolicyLevers
