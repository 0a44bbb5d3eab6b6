import PolicyLevers.Proofs.AtomicStatements
import PolicyLevers.Proofs.StateLocations

/-!
# Programs write where they say

Each instruction names the locations that it may write.  Only an assignment can put a number in the place
of a region, because every other write goes to a path that was read as a number before.  A run changes
nothing but the targets of its instructions, successful or not, and it only adds to what was inspected.
-/

namespace PolicyLevers

set_option autoImplicit false

open Running

/-! ## What an instruction says -/

def Instruction.targets : Instruction → List Location
  | .define name _ => [⟨.locals, name, []⟩]
  | .assign target _ => target.location?.toList
  | .limit target _ _ => target.location?.toList
  | .distribute _ targets _ => targets.filterMap (fun target => target.1.location?)
  | .change target _ _ _ => target.location?.toList
  | .inspect _ _ => []

/-- The instruction assigns a number to the region that the location is an attribute of. -/
def Instruction.replacesRegionOf (location : Location) : Instruction → Bool
  | .assign target _ => target.location?.any location.isAttributeOf
  | _ => false

def Instruction.label? : Instruction → Option String
  | .inspect label _ => some label
  | _ => none

/-- The instructions that run before the first failure. -/
def executed (repeatLimit : Nat) : List Instruction → World → List Instruction
  | [], _ => []
  | instruction :: rest, world =>
    match instruction.run repeatLimit world with
    | .ok _ after => instruction :: executed repeatLimit rest after
    | .error _ _ => []

/-- The world that a computation leaves behind, successful or not. -/
def Running.finish {α : Type} (computation : Running α) (world : World) : World :=
  match computation world with
  | .ok _ after => after
  | .error _ after => after

/-- What a state has become after some instructions ran on it. -/
structure Effects (before after : State) (instructions : List Instruction) : Prop where
  numbers : ∀ location, (∀ instruction ∈ instructions, location ∉ instruction.targets) →
    after.numberAt? location =
      if instructions.any (Instruction.replacesRegionOf location) then none
      else before.numberAt? location
  records : ∃ records, after.inspected = before.inspected ++ records ∧
    records.map InspectRecord.name = instructions.filterMap Instruction.label?

theorem Effects.nil (state : State) : Effects state state [] :=
  ⟨fun _ _ => rfl, [], by simp⟩

theorem Effects.append {before middle after : State} {first second : List Instruction}
    (early : Effects before middle first) (late : Effects middle after second) :
    Effects before after (first ++ second) := by
  obtain ⟨earlyRecords, earlyInspected, earlyLabels⟩ := early.records
  obtain ⟨lateRecords, lateInspected, lateLabels⟩ := late.records
  refine ⟨?_, earlyRecords ++ lateRecords, ?_, ?_⟩
  · intro location outside
    have outsideFirst := early.numbers location
      (fun instruction member => outside instruction (List.mem_append_left second member))
    have outsideSecond := late.numbers location
      (fun instruction member => outside instruction (List.mem_append_right first member))
    rw [outsideSecond, outsideFirst, List.any_append]
    cases first.any (Instruction.replacesRegionOf location) <;>
      cases second.any (Instruction.replacesRegionOf location) <;> rfl
  · rw [lateInspected, earlyInspected, List.append_assoc]
  · rw [List.map_append, List.filterMap_append, earlyLabels, lateLabels]

/-! ## Writes over numbers -/

/-- Everything outside some locations stays, also what was inspected. -/
structure KeptOutside (locations : List Location) (before after : State) : Prop where
  numbers : ∀ location, location ∉ locations → after.numberAt? location = before.numberAt? location
  inspected : after.inspected = before.inspected

theorem KeptOutside.refl (locations : List Location) (state : State) :
    KeptOutside locations state state := ⟨fun _ _ => rfl, rfl⟩

theorem KeptOutside.trans {locations : List Location} {before middle after : State}
    (early : KeptOutside locations before middle) (late : KeptOutside locations middle after) :
    KeptOutside locations before after :=
  ⟨fun location outside => (late.numbers location outside).trans (early.numbers location outside),
    late.inspected.trans early.inspected⟩

/-- Writes that keep everything outside the targets of an instruction are all it does, if it replaces
no region and inspects nothing. -/
theorem KeptOutside.effects {before after : State} {instruction : Instruction}
    (kept : KeptOutside instruction.targets before after)
    (keepsRegions : ∀ location, instruction.replacesRegionOf location = false)
    (silent : instruction.label? = none) : Effects before after [instruction] := by
  refine ⟨?_, [], by simp [kept.inspected], by simp [silent]⟩
  intro location outside
  simp only [List.any_cons, List.any_nil, keepsRegions, Bool.or_self, Bool.false_eq_true, if_false]
  exact kept.numbers location (outside instruction (by simp))

theorem State.no_attributes {state : State} {inner outer : Location} {value : Float}
    (number : state.numberAt? outer = some value) (inside : inner.isAttributeOf outer = true) :
    state.numberAt? inner = none := by
  obtain ⟨region, name, rfl, rfl⟩ := Location.attribute_of_iff.mp inside
  simp only [numberAt?, region?] at number ⊢
  cases entry : state.ledger.get? region with
  | none => rfl
  | some held => cases held <;> simp_all [LedgerEntry.number?, LedgerEntry.attributes?]

theorem State.overwritten {state written : State} {path : Path} {location : Location}
    {current value : Float} (leads : path.location? = some location)
    (found : state.get path = .ok current) (stored : state.set path value = .ok written) :
    written.inspected = state.inspected ∧ ∀ other, written.numberAt? other =
      if other = location then some value else state.numberAt? other := by
  obtain ⟨target, same, inspected, numbers⟩ := set_written stored
  obtain rfl : location = target := Option.some.inj (leads.symm.trans same)
  obtain ⟨place, here, held⟩ := get_ok_iff.mp found
  obtain rfl : location = place := Option.some.inj (leads.symm.trans here)
  refine ⟨inspected, ?_⟩
  intro other
  rw [numbers]
  by_cases inside : other.isAttributeOf location = true
  · rw [if_pos inside, no_attributes held inside]
  · rw [if_neg inside]

/-- Another number stands where the path leads, and nothing else is changed. -/
def State.OverwrittenAt (before after : State) (path : Path) (number : Float) : Prop :=
  after.inspected = before.inspected ∧ ∃ location, path.location? = some location ∧
    ∀ other, after.numberAt? other =
      if other = location then some number else before.numberAt? other

theorem State.OverwrittenAt.get {before after : State} {path : Path} {number : Float}
    (written : before.OverwrittenAt after path number) : after.get path = .ok number := by
  obtain ⟨_, location, leads, numbers⟩ := written
  exact get_ok_iff.mpr ⟨location, leads, by rw [numbers, if_pos rfl]⟩

theorem set_over_number {path : Path} {world : World} {current : Float}
    (found : world.state.get path = .ok current) (number : Float) :
    ∃ after, Running.set path number world = .ok () { world with state := after } ∧
      world.state.OverwrittenAt after path number := by
  obtain ⟨after, stored, _⟩ := State.set_readable number ⟨current, found⟩
  obtain ⟨location, leads, _⟩ := State.get_ok_iff.mp found
  obtain ⟨inspected, numbers⟩ := State.overwritten leads found stored
  exact ⟨after, by rw [Running.set, writing, stored], inspected, location, leads, numbers⟩

theorem State.overwrite_kept {state written : State} {path : Path} {current value : Float}
    (found : state.get path = .ok current) (stored : state.set path value = .ok written) :
    KeptOutside path.location?.toList state written := by
  obtain ⟨location, leads, _⟩ := get_ok_iff.mp found
  obtain ⟨inspected, numbers⟩ := overwritten leads found stored
  refine ⟨?_, inspected⟩
  intro other outside
  have different : other ≠ location := by simpa [leads] using outside
  rw [numbers, if_neg different]

theorem writing_ok_iff {write : State → Except RuntimeError State} {world after : World} :
    writing write world = .ok () after ↔
      ∃ state, write world.state = .ok state ∧ after = { world with state := state } := by
  cases stored : write world.state with
  | ok state => simp [writing, stored, eq_comm]
  | error error => simp [writing, stored]

theorem update_kept {path : Path} {value : Float → Float} {world after : World}
    (done : (Running.get path >>= fun current => Running.set path (value current)) world = .ok () after) :
    KeptOutside path.location?.toList world.state after.state := by
  obtain ⟨current, middle, read, write⟩ := bind_ok_iff.mp done
  obtain ⟨found, rfl⟩ := get_ok_iff.mp read
  obtain ⟨state, stored, rfl⟩ := writing_ok_iff.mp write
  exact State.overwrite_kept found stored

theorem read_portions_paths {repeatLimit : Nat} {targets : List (Path × Option Expression)}
    {world after : World} {portions : List Portion}
    (found : readPortions repeatLimit targets world = .ok portions after) :
    portions.map Portion.path = targets.map Prod.fst := by
  induction targets generalizing world portions with
  | nil =>
      cases found
      rfl
  | cons target rest induction =>
      obtain ⟨path, weight⟩ := target
      rw [read_portions_cons] at found
      obtain ⟨before, _, _, afterRead⟩ := bind_ok_iff.mp found
      obtain ⟨weight, _, _, afterWeight⟩ := bind_ok_iff.mp afterRead
      obtain ⟨others, _, othersFound, done⟩ := bind_ok_iff.mp afterWeight
      cases done
      simp [induction othersFound]

theorem KeptOutside.widen {locations wider : List Location} {before after : State}
    (kept : KeptOutside locations before after) (within : locations ⊆ wider) :
    KeptOutside wider before after :=
  ⟨fun location outside => kept.numbers location (fun member => outside (within member)),
    kept.inspected⟩

theorem write_portions_kept {amount : Float} {shareOf : Portion → Float} {locations : List Location}
    {portions : List Portion} {world after : World}
    (readable : ∀ portion ∈ portions, world.state.Readable portion.path)
    (within : ∀ portion ∈ portions, portion.path.location?.toList ⊆ locations)
    (done : writePortions amount shareOf portions world = .ok () after) :
    KeptOutside locations world.state after.state := by
  induction portions generalizing world with
  | nil =>
      cases done
      exact .refl locations _
  | cons portion rest induction =>
      have laterWithin : ∀ other ∈ rest, other.path.location?.toList ⊆ locations :=
        fun other member => within other (by simp [member])
      rw [write_portions_cons] at done
      by_cases moves : (portion.before != 0.0) = true
      · rw [if_pos moves] at done
        obtain ⟨_, middle, write, further⟩ := bind_ok_iff.mp done
        obtain ⟨state, stored, rfl⟩ := writing_ok_iff.mp write
        obtain ⟨current, found⟩ := readable portion (by simp)
        -- The write keeps the later portions readable.
        obtain ⟨written, same, keeps⟩ := State.set_readable
          (portion.before + amount * shareOf portion) ⟨current, found⟩
        obtain rfl : state = written := Except.ok.inj (stored.symm.trans same)
        have here := (State.overwrite_kept found stored).widen (within portion (by simp))
        apply here.trans
        apply induction _ laterWithin further
        intro other member
        exact keeps other.path (readable other (by simp [member]))
      · rw [if_neg moves] at done
        exact induction (fun other member => readable other (by simp [member])) laterWithin done

/-! ## Instructions and programs -/

theorem define_local_ok {state after : State} {name : String} {value : Float}
    (stored : state.defineLocal name value = .ok after) :
    after = state.withNames .locals ((state.namesOf .locals).insert name value) := by
  unfold State.defineLocal at stored
  split at stored
  · cases stored
  · cases stored
    rfl

/-- A number put at the only target of an instruction, which replaces a region if one is there. -/
theorem State.WrittenAt.effects {before after : State} {location : Location} {value : Float}
    {instruction : Instruction} (written : before.WrittenAt after location value)
    (only : instruction.targets = [location])
    (replaces : ∀ other, instruction.replacesRegionOf other = other.isAttributeOf location)
    (silent : instruction.label? = none) : Effects before after [instruction] := by
  obtain ⟨inspected, numbers⟩ := written
  refine ⟨?_, [], by simp [inspected], by simp [silent]⟩
  intro other outside
  have different : other ≠ location := by simpa [only] using outside
  simpa [replaces, different] using numbers other

theorem instruction_effects {repeatLimit : Nat} {instruction : Instruction} {world after : World}
    (done : instruction.run repeatLimit world = .ok () after) :
    Effects world.state after.state [instruction] := by
  cases instruction with
  | define name value =>
      obtain ⟨number, middle, read, write⟩ := bind_ok_iff.mp done
      rw [← (keeps_reading _).ok read]
      obtain ⟨state, stored, rfl⟩ := writing_ok_iff.mp write
      obtain rfl := define_local_ok stored
      have written := middle.state.written_name (show Section.locals ≠ .ledger by decide) name number
      apply written.effects rfl _ rfl
      rintro ⟨area, first, rest⟩
      cases area <;> rcases rest with _ | ⟨_, _ | ⟨_, _⟩⟩ <;> rfl
  | assign target value =>
      obtain ⟨number, middle, read, write⟩ := bind_ok_iff.mp done
      obtain ⟨state, stored, rfl⟩ := writing_ok_iff.mp write
      rw [← (keeps_reading _).ok read]
      obtain ⟨location, leads, written⟩ := State.set_written stored
      apply written.effects _ _ rfl
      · simp [Instruction.targets, leads]
      · intro other
        simp [Instruction.replacesRegionOf, leads]
  | limit target lower upper =>
      obtain ⟨lower, first, readLower, afterLower⟩ := bind_ok_iff.mp done
      obtain ⟨upper, second, readUpper, afterUpper⟩ := bind_ok_iff.mp afterLower
      rw [← (keeps_evaluate_optional _ _).ok readLower, ← (keeps_evaluate_optional _ _).ok readUpper]
      apply KeptOutside.effects _ (fun _ => rfl) rfl
      exact update_kept afterUpper
  | distribute value targets split =>
      obtain ⟨amount, middle, read, rest⟩ := bind_ok_iff.mp done
      rw [← (keeps_reading _).ok read]
      by_cases small : amount.abs < distributeThreshold
      · simp only [small, if_true] at rest
        cases rest
        exact (KeptOutside.refl _ _).effects (fun _ => rfl) rfl
      · simp only [small, if_false] at rest
        obtain ⟨portions, ready, found, write⟩ := bind_ok_iff.mp rest
        have paths := read_portions_paths found
        have readable := read_portions_readable found
        rw [← (keeps_read_portions _ _).ok found]
        refine (write_portions_kept readable ?_ write).effects (fun _ => rfl) rfl
        intro portion member location leads
        have listed : portion.path ∈ targets.map Prod.fst := by
          rw [← paths]
          exact List.mem_map_of_mem member
        obtain ⟨target, targetMember, same⟩ := List.mem_map.mp listed
        refine List.mem_filterMap.mpr ⟨target, targetMember, ?_⟩
        rw [same]
        exact Option.mem_toList.mp leads
  | change target delta start finish =>
      obtain ⟨delta, first, readDelta, afterDelta⟩ := bind_ok_iff.mp done
      obtain ⟨start, second, readStart, afterStart⟩ := bind_ok_iff.mp afterDelta
      obtain ⟨finish, third, readFinish, afterFinish⟩ := bind_ok_iff.mp afterStart
      rw [← (keeps_reading _).ok readDelta, ← (keeps_reading _).ok readStart,
        ← (keeps_reading _).ok readFinish]
      by_cases ordered : start < finish
      · simp only [ordered, if_true] at afterFinish
        obtain ⟨year, fourth, readYear, update⟩ := bind_ok_iff.mp afterFinish
        rw [← (keeps_reading _).ok readYear]
        apply KeptOutside.effects _ (fun _ => rfl) rfl
        exact update_kept update
      · simp only [ordered, if_false] at afterFinish
        cases afterFinish
  | inspect label value =>
      obtain ⟨number, middle, read, write⟩ := bind_ok_iff.mp done
      rw [← (keeps_reading _).ok read]
      cases write
      exact ⟨fun location _ => rfl, [⟨label, number⟩], rfl, rfl⟩

/-- A run has the effects of the instructions that ran before the first failure, because the failing
one has none. -/
theorem run_effects (repeatLimit : Nat) (instructions : List Instruction) (world : World) :
    Effects world.state (finish (runAll repeatLimit instructions) world).state
      (executed repeatLimit instructions world) := by
  induction instructions generalizing world with
  | nil => exact .nil world.state
  | cons instruction rest induction =>
      cases outcome : instruction.run repeatLimit world with
      | ok value middle =>
          have further : runAll repeatLimit (instruction :: rest) world =
              runAll repeatLimit rest middle := bind_of_ok outcome _
          simp only [finish, further, executed, outcome]
          exact (instruction_effects outcome).append (induction middle)
      | error halt after =>
          have stopped : runAll repeatLimit (instruction :: rest) world = .error halt after :=
            bind_of_error outcome _
          have unchanged := atomic_instruction repeatLimit instruction world halt after outcome
          simp only [finish, stopped, executed, outcome, unchanged]
          exact .nil world.state

theorem executed_prefix (repeatLimit : Nat) (instructions : List Instruction) (world : World) :
    executed repeatLimit instructions world <+: instructions := by
  induction instructions generalizing world with
  | nil => exact List.prefix_rfl
  | cons instruction rest induction =>
      unfold executed
      cases instruction.run repeatLimit world with
      | ok value middle => exact List.cons_prefix_cons.mpr ⟨rfl, induction middle⟩
      | error halt after => exact List.nil_prefix

theorem executed_all {repeatLimit : Nat} {instructions : List Instruction} {world after : World}
    (done : runAll repeatLimit instructions world = .ok () after) :
    executed repeatLimit instructions world = instructions := by
  induction instructions generalizing world with
  | nil => rfl
  | cons instruction rest induction =>
      obtain ⟨_, middle, here, further⟩ := bind_ok_iff.mp done
      rw [executed, here]
      exact congrArg (List.cons instruction) (induction further)

/-- After a run, successful or not, a location that is no target of the program holds what it held
before.  The one exception are the attributes of a region: they are lost once an assignment to the
region has run.  What was inspected stays, and the labels of the inspections that ran follow it. -/
theorem programs_write_to_their_targets (program : Program) (world : World) :
    executed program.repeatLimit program.instructions world <+: program.instructions ∧
    (∀ after, program.run world = .ok () after →
      executed program.repeatLimit program.instructions world = program.instructions) ∧
    (∀ location, (∀ instruction ∈ program.instructions, location ∉ instruction.targets) →
      ((∀ instruction ∈ program.instructions, instruction.replacesRegionOf location = false) →
        (finish program.run world).state.numberAt? location = world.state.numberAt? location) ∧
      (finish program.run world).state.numberAt? location =
        if (executed program.repeatLimit program.instructions world).any
          (Instruction.replacesRegionOf location) then none
        else world.state.numberAt? location) ∧
    ∃ records, (finish program.run world).state.inspected = world.state.inspected ++ records ∧
      records.map InspectRecord.name =
        (executed program.repeatLimit program.instructions world).filterMap Instruction.label? := by
  have effects := run_effects program.repeatLimit program.instructions world
  have ran := executed_prefix program.repeatLimit program.instructions world
  refine ⟨ran, fun after done => executed_all done, ?_, effects.records⟩
  intro location outside
  have numbers := effects.numbers location (fun instruction member =>
    outside instruction (ran.subset member))
  refine ⟨?_, numbers⟩
  intro keeps
  have none_ : (executed program.repeatLimit program.instructions world).any
      (Instruction.replacesRegionOf location) = false := by
    rw [List.any_eq_false]
    intro instruction member
    simpa using keeps instruction (ran.subset member)
  exact numbers.trans (by rw [none_]; rfl)

/-- Replaces one region and stops at another one, which is no number. -/
def replacingProgram : Program :=
  ⟨[.inspect "5" (.number 5.0), .assign (.parse "out.china") (.number 3.0),
    .limit (.parse "out.india") none (some (.number 1.0)),
    .assign (.parse "out.india") (.number 1.0), .inspect "6" (.number 6.0)], 10⟩

def replacingWorld : World :=
  ⟨(State.empty.setRegion "china" (.ofList [("x", 1.0)])).setRegion "india" (.ofList [("y", 2.0)]),
    .start (fun _ => 0)⟩

theorem replacing_program_stops :
    (finish replacingProgram.run replacingWorld).state.numberAt? ⟨.ledger, "china", ["x"]⟩ = none ∧
    (finish replacingProgram.run replacingWorld).state.numberAt? ⟨.ledger, "india", ["y"]⟩ =
      some 2.0 ∧
    (finish replacingProgram.run replacingWorld).state.numberAt? ⟨.inputs, "x", []⟩ = none ∧
    (finish replacingProgram.run replacingWorld).state.inspected.map InspectRecord.name = ["5"] := by
  obtain ⟨_, _, numbers, records, inspected, labels⟩ :=
    programs_write_to_their_targets replacingProgram replacingWorld
  have ran : executed replacingProgram.repeatLimit replacingProgram.instructions replacingWorld =
      replacingProgram.instructions.take 2 := by decide +kernel
  refine ⟨(numbers _ (by decide +kernel)).2.trans ?_, (numbers _ (by decide +kernel)).2.trans ?_,
    (numbers _ (by decide +kernel)).1 (by decide +kernel), ?_⟩
  · rw [ran]
    rfl
  · rw [ran]
    rfl
  · rw [inspected, List.map_append, labels, ran]
    rfl

end PolicyLevers
