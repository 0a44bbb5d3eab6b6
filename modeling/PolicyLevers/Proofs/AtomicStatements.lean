import PolicyLevers.Program.Run
import PolicyLevers.Proofs.StatePaths

/-!
# Failing instructions change nothing

An instruction makes all its reads and checks before it writes, and a write of a distribution that
could be prepared cannot fail.  So a program that fails leaves the state as the instructions before
the failing one made it.
-/

namespace PolicyLevers

set_option autoImplicit false

/-! ## Computations in turn -/

section Turns

variable {ε σ α β : Type}

theorem bind_ok_iff {first : EStateM ε σ α} {next : α → EStateM ε σ β} {start after : σ} {result : β} :
    (first >>= next) start = .ok result after ↔
      ∃ value middle, first start = .ok value middle ∧ next value middle = .ok result after := by
  change EStateM.bind first next start = _ ↔ _
  unfold EStateM.bind
  cases first start with
  | ok value middle =>
      constructor
      · intro done
        exact ⟨value, middle, rfl, done⟩
      · rintro ⟨_, _, found, done⟩
        cases found
        exact done
  | error halt middle => simp

theorem bind_error_iff {first : EStateM ε σ α} {next : α → EStateM ε σ β} {start after : σ} {halt : ε} :
    (first >>= next) start = .error halt after ↔
      first start = .error halt after ∨
        ∃ value middle, first start = .ok value middle ∧ next value middle = .error halt after := by
  change EStateM.bind first next start = _ ↔ _
  unfold EStateM.bind
  cases first start with
  | ok value middle =>
      constructor
      · intro failed
        exact Or.inr ⟨value, middle, rfl, failed⟩
      · rintro (failed | ⟨_, _, found, failed⟩)
        · cases failed
        · cases found
          exact failed
  | error reason middle => simp

theorem bind_of_ok {first : EStateM ε σ α} {start middle : σ} {value : α}
    (done : first start = .ok value middle) (next : α → EStateM ε σ β) :
    (first >>= next) start = next value middle := by
  change EStateM.bind first next start = _
  rw [EStateM.bind, done]

theorem bind_of_error {first : EStateM ε σ α} {start after : σ} {halt : ε}
    (failed : first start = .error halt after) (next : α → EStateM ε σ β) :
    (first >>= next) start = .error halt after :=
  bind_error_iff.mpr (Or.inl failed)

end Turns

/-! ## Computations on a world -/

namespace Running

variable {α β : Type}

/-- Leaves the state alone, found or not. -/
def KeepsState (computation : Running α) : Prop :=
  ∀ world, match computation world with
    | .ok _ after => after.state = world.state
    | .error _ after => after.state = world.state

/-- Leaves the state alone when it fails. -/
def Atomic (computation : Running α) : Prop :=
  ∀ world halt after, computation world = .error halt after → after.state = world.state

theorem reading_of_ok {read : State → Drawing α} {world : World} {source : Random.WordSource} {value : α}
    (found : read world.state world.source = .ok value source) :
    reading read world = .ok value { world with source := source } := by
  rw [reading, found]

theorem KeepsState.ok {computation : Running α} (keeps : KeepsState computation) {world after : World}
    {value : α} (done : computation world = .ok value after) : after.state = world.state := by
  have kept := keeps world
  simpa only [done] using kept

theorem KeepsState.atomic {computation : Running α} (keeps : KeepsState computation) :
    Atomic computation := by
  intro world halt after failed
  have kept := keeps world
  simpa only [failed] using kept

theorem keeps_pure (value : α) : KeepsState (pure value) := fun _ => rfl

theorem keeps_throw (halt : Halt RuntimeError) : KeepsState (throw halt : Running α) := fun _ => rfl

theorem keeps_reading (read : State → Drawing α) : KeepsState (reading read) := by
  intro world
  unfold reading
  cases read world.state world.source <;> rfl

theorem KeepsState.bind {first : Running α} {next : α → Running β} (here : KeepsState first)
    (later : ∀ value, KeepsState (next value)) : KeepsState (first >>= next) := by
  intro world
  cases outcome : (first >>= next) world with
  | ok result after =>
      obtain ⟨value, middle, found, rest⟩ := bind_ok_iff.mp outcome
      exact ((later value).ok rest).trans (here.ok found)
  | error halt after =>
      rcases bind_error_iff.mp outcome with failed | ⟨value, middle, found, failed⟩
      · exact here.atomic world halt after failed
      · exact ((later value).atomic middle halt after failed).trans (here.ok found)

theorem KeepsState.bind_atomic {first : Running α} {next : α → Running β} (here : KeepsState first)
    (later : ∀ value, Atomic (next value)) : Atomic (first >>= next) := by
  intro world halt after outcome
  rcases bind_error_iff.mp outcome with failed | ⟨value, middle, found, failed⟩
  · exact here.atomic world halt after failed
  · exact (later value middle halt after failed).trans (here.ok found)

theorem atomic_writing (write : State → Except RuntimeError State) : Atomic (writing write) := by
  intro world halt after failed
  unfold writing at failed
  split at failed
  · cases failed
  · cases failed
    rfl

theorem keeps_get (path : Path) : KeepsState (get path) := keeps_reading _

theorem atomic_set (path : Path) (value : Float) : Atomic (set path value) := atomic_writing _

theorem get_ok_iff {path : Path} {value : Float} {world after : World} :
    get path world = .ok value after ↔ world.state.get path = .ok value ∧ after = world := by
  cases found : world.state.get path with
  | ok held =>
      simp only [get, reading, Drawing.ofExcept, found, EStateM.Result.ok.injEq, Except.ok.injEq]
      exact and_congr_right fun _ => eq_comm
  | error error => simp [get, reading, Drawing.ofExcept, found]

end Running

/-! ## Statements -/

open Running

theorem keeps_evaluate_optional (repeatLimit : Nat) (expression : Option Expression) :
    KeepsState (evaluateOptional repeatLimit expression) := by
  cases expression with
  | none => exact keeps_pure none
  | some expression => exact (keeps_reading _).bind (fun value => keeps_pure (some value))

/-- The weight of a target whose current value is known. -/
def weigh (repeatLimit : Nat) (before : Float) : Option Expression → Running Float
  | some weight => reading (fun state => weight.evaluate repeatLimit state)
  | none => pure before

theorem keeps_weigh (repeatLimit : Nat) (before : Float) (weight : Option Expression) :
    KeepsState (weigh repeatLimit before weight) := by
  cases weight with
  | none => exact keeps_pure before
  | some weight => exact keeps_reading (fun state => weight.evaluate repeatLimit state)

theorem read_portions_cons (repeatLimit : Nat) (path : Path) (weight : Option Expression)
    (rest : List (Path × Option Expression)) :
    readPortions repeatLimit ((path, weight) :: rest) = (do
      let before ← Running.get path
      let weight ← weigh repeatLimit before weight
      let portions ← readPortions repeatLimit rest
      pure (⟨path, before, weight⟩ :: portions)) := by
  cases weight <;> rfl

theorem write_portions_cons (amount : Float) (shareOf : Portion → Float) (portion : Portion)
    (rest : List Portion) :
    writePortions amount shareOf (portion :: rest) =
      if portion.before != 0.0 then do
        Running.set portion.path (portion.before + amount * shareOf portion)
        writePortions amount shareOf rest
      else writePortions amount shareOf rest := by
  by_cases moves : (portion.before != 0.0) = true
  · simp only [writePortions, moves, if_true]
  · simp only [writePortions, moves]

theorem keeps_read_portions (repeatLimit : Nat) (targets : List (Path × Option Expression)) :
    KeepsState (readPortions repeatLimit targets) := by
  induction targets with
  | nil => exact keeps_pure []
  | cons target rest ih =>
      obtain ⟨path, weight⟩ := target
      rw [read_portions_cons]
      exact (keeps_get path).bind (fun before => (keeps_weigh repeatLimit before weight).bind
        (fun weight => ih.bind (fun portions => keeps_pure _)))

theorem read_portions_readable {repeatLimit : Nat} {targets : List (Path × Option Expression)}
    {world after : World} {portions : List Portion}
    (found : readPortions repeatLimit targets world = .ok portions after) :
    ∀ portion ∈ portions, after.state.Readable portion.path := by
  induction targets generalizing world portions with
  | nil =>
      cases found
      simp
  | cons target rest ih =>
      have kept := (keeps_read_portions repeatLimit (target :: rest)).ok found
      obtain ⟨path, weight⟩ := target
      rw [read_portions_cons] at found
      obtain ⟨before, here, read, afterRead⟩ := bind_ok_iff.mp found
      obtain ⟨present, rfl⟩ := get_ok_iff.mp read
      obtain ⟨weight, _, _, afterWeight⟩ := bind_ok_iff.mp afterRead
      obtain ⟨others, _, othersFound, done⟩ := bind_ok_iff.mp afterWeight
      cases done
      intro portion member
      rcases List.mem_cons.mp member with same | later
      · subst same
        rw [kept]
        exact State.readable_of_get present
      · exact ih othersFound portion later

/-- Portions at readable paths are written without fail, whatever is written to them. -/
theorem write_portions_total (amount : Float) (shareOf : Portion → Float) {portions : List Portion}
    {world : World} (readable : ∀ portion ∈ portions, world.state.Readable portion.path) :
    ∃ after, writePortions amount shareOf portions world = .ok () after ∧
      ∀ path, world.state.Readable path → after.state.Readable path := by
  induction portions generalizing world with
  | nil => exact ⟨world, rfl, fun path readable => readable⟩
  | cons portion rest ih =>
      obtain ⟨state, written, keeps⟩ := State.set_readable
        (portion.before + amount * shareOf portion) (readable portion (by simp))
      rw [write_portions_cons]
      by_cases moves : (portion.before != 0.0) = true
      · have stored : Running.set portion.path (portion.before + amount * shareOf portion) world =
            .ok () { world with state := state } := by
          simp [Running.set, writing, written]
        have others : ∀ other ∈ rest,
            ({ world with state := state } : World).state.Readable other.path := by
          intro other member
          exact keeps other.path (readable other (by simp [member]))
        obtain ⟨after, done, keepsOn⟩ := ih others
        refine ⟨after, ?_, fun path here => keepsOn path (keeps path here)⟩
        rw [if_pos moves]
        exact bind_ok_iff.mpr ⟨(), _, stored, done⟩
      · rw [if_neg moves]
        exact ih (fun other member => readable other (by simp [member]))

theorem atomic_distribution (repeatLimit : Nat) (targets : List (Path × Option Expression))
    (amount : Float) (split : Script.Split) :
    Atomic (do
      let portions ← readPortions repeatLimit targets
      writePortions amount (share split portions) portions) := by
  intro world halt after outcome
  rcases bind_error_iff.mp outcome with failed | ⟨portions, middle, found, failed⟩
  · exact (keeps_read_portions repeatLimit targets).atomic world halt after failed
  · obtain ⟨_, written, _⟩ := write_portions_total amount (share split portions)
      (read_portions_readable found)
    rw [written] at failed
    cases failed

theorem atomic_instruction (repeatLimit : Nat) (instruction : Instruction) :
    Atomic (instruction.run repeatLimit) := by
  cases instruction with
  | define name value => exact (keeps_reading _).bind_atomic (fun value => atomic_writing _)
  | assign target value => exact (keeps_reading _).bind_atomic (fun value => atomic_set target value)
  | limit target lower upper =>
      apply (keeps_evaluate_optional repeatLimit lower).bind_atomic
      intro lower
      apply (keeps_evaluate_optional repeatLimit upper).bind_atomic
      intro upper
      exact (keeps_get target).bind_atomic (fun current => atomic_set target _)
  | distribute value targets split =>
      apply (keeps_reading _).bind_atomic
      intro amount
      by_cases small : amount.abs < distributeThreshold
      · simpa only [small, if_true] using (keeps_pure ()).atomic
      · simpa only [small, if_false] using atomic_distribution repeatLimit targets amount split
  | change target delta start finish =>
      apply (keeps_reading _).bind_atomic
      intro delta
      apply (keeps_reading _).bind_atomic
      intro start
      apply (keeps_reading _).bind_atomic
      intro finish
      by_cases ordered : start < finish
      · simp only [ordered, if_true]
        apply (keeps_reading _).bind_atomic
        intro year
        exact (keeps_get target).bind_atomic (fun current => atomic_set target _)
      · simpa only [ordered, if_false] using (keeps_throw _).atomic
  | inspect label value => exact (keeps_reading _).bind_atomic (fun value => atomic_writing _)

/-- A failure of a program is the failure of one instruction, after those before it succeeded. -/
theorem run_all_failed {repeatLimit : Nat} {instructions : List Instruction} {world after : World}
    {halt : Halt RuntimeError} (failed : runAll repeatLimit instructions world = .error halt after) :
    ∃ before failing later middle, instructions = before ++ failing :: later ∧
      runAll repeatLimit before world = .ok () middle ∧
        failing.run repeatLimit middle = .error halt after := by
  induction instructions generalizing world with
  | nil => cases failed
  | cons instruction rest ih =>
      rcases bind_error_iff.mp failed with here | ⟨_, next, done, further⟩
      · exact ⟨[], instruction, rest, world, rfl, rfl, here⟩
      · obtain ⟨before, failing, later, middle, split, ran, stopped⟩ := ih further
        refine ⟨instruction :: before, failing, later, middle, by simp [split], ?_, stopped⟩
        exact bind_ok_iff.mpr ⟨(), next, done, ran⟩

/-- Instructions are atomic.  Portions that were found are written to the last one.  A program that
fails stands where the instructions before the failing one left it. -/
theorem failures_change_nothing (program : Program) :
    (∀ (instruction : Instruction) (world : World) (halt : Halt RuntimeError) (after : World),
      instruction.run program.repeatLimit world = .error halt after → after.state = world.state) ∧
    (∀ (targets : List (Path × Option Expression)) (world ready : World)
        (written remaining : List Portion) (amount : Float) (shareOf : Portion → Float),
      readPortions program.repeatLimit targets world = .ok (written ++ remaining) ready →
        ∃ middle after, writePortions amount shareOf written ready = .ok () middle ∧
          writePortions amount shareOf remaining middle = .ok () after) ∧
    ∀ (world : World) (halt : Halt RuntimeError) (after : World),
      program.run world = .error halt after →
      ∃ before failing later middle, program.instructions = before ++ failing :: later ∧
        runAll program.repeatLimit before world = .ok () middle ∧
        failing.run program.repeatLimit middle = .error halt after ∧ after.state = middle.state := by
  refine ⟨fun instruction => atomic_instruction program.repeatLimit instruction, ?_, ?_⟩
  · intro targets world ready written remaining amount shareOf found
    have readable := read_portions_readable found
    obtain ⟨middle, done, keeps⟩ := write_portions_total amount shareOf
      (fun portion member => readable portion (List.mem_append_left remaining member))
    obtain ⟨after, finished, _⟩ := write_portions_total amount shareOf
      (fun portion member =>
        keeps portion.path (readable portion (List.mem_append_right written member)))
    exact ⟨middle, after, done, finished⟩
  · intro world halt after failed
    obtain ⟨before, failing, later, middle, split, ran, stopped⟩ := run_all_failed failed
    exact ⟨before, failing, later, middle, split, ran, stopped,
      atomic_instruction program.repeatLimit failing middle halt after stopped⟩

def sharingProgram : Program :=
  ⟨[.define "a" (.number 2.0),
    .distribute (.number 6.0) [(.parse "a", none), (.parse "out.china.x", none)] .linear,
    .distribute (.number 6.0) [(.parse "local.a", none), (.parse "out.china.y", none)] .linear], 10⟩

def sharingWorld : World :=
  ⟨State.empty.setRegion "china" (.ofList [("x", 1.0)]), .start (fun _ => 0)⟩

def failure? : EStateM.Result (Halt RuntimeError) World Unit → Option RuntimeError
  | .error (.failure error) _ => some error
  | _ => none

/-- One attribute listed twice, once with a weight. -/
def sharedTargets : List (Path × Option Expression) :=
  [(.parse "out.china.x", none), (.parse "out.china.x", some (.number 3.0))]

theorem sharing_program_stops :
    (∃ halt after before failing later middle,
      sharingProgram.run sharingWorld = .error halt after ∧
        sharingProgram.instructions = before ++ failing :: later ∧
        runAll sharingProgram.repeatLimit before sharingWorld = .ok () middle ∧
        failing.run sharingProgram.repeatLimit middle = .error halt after ∧
        after.state = middle.state) ∧
    ∃ first second middle after,
      readPortions sharingProgram.repeatLimit sharedTargets sharingWorld =
        .ok ([first] ++ [second]) sharingWorld ∧
      writePortions 6.0 (fun _ => 0.5) [first] sharingWorld = .ok () middle ∧
      writePortions 6.0 (fun _ => 0.5) [second] middle = .ok () after := by
  obtain ⟨atomic, writes, fails⟩ := failures_change_nothing sharingProgram
  constructor
  · have stops : failure? (sharingProgram.run sharingWorld) = some (.notFound "y" "out.china.y") := by
      decide +kernel
    cases outcome : sharingProgram.run sharingWorld with
    | ok _ after => simp [outcome, failure?] at stops
    | error halt after =>
        obtain ⟨before, failing, later, middle, parts, ran, stopped, _⟩ :=
          fails sharingWorld halt after outcome
        have unchanged := atomic failing middle halt after stopped
        exact ⟨halt, after, before, failing, later, middle, rfl, parts, ran, stopped, unchanged⟩
  · have found : readPortions sharingProgram.repeatLimit sharedTargets sharingWorld =
        .ok ([⟨.parse "out.china.x", 1.0, 1.0⟩] ++ [⟨.parse "out.china.x", 1.0, 3.0⟩])
          sharingWorld := rfl
    obtain ⟨middle, after, first, second⟩ :=
      writes sharedTargets sharingWorld sharingWorld _ _ 6.0 (fun _ => 0.5) found
    exact ⟨_, _, middle, after, found, first, second⟩

end PolicyLevers
