import Mathlib.Data.List.Forall2
import PolicyLevers.CommandLine.Execution
import PolicyLevers.Proofs.MapLaws
import PolicyLevers.Proofs.WrittenArguments

/-!
# Inputs given on the command line

What a check is asked for is told by the parts of the command line, each option for itself.  The script is
started on the frame of the year with the inputs that are given, except for the name under which the command
itself registers the script: there the value of that lever stands.
-/

namespace PolicyLevers

set_option autoImplicit false

theorem Text.cut_at_iff {mark : Char} {text before after : List Char} :
    cutAt mark text = some (before, after) ↔ mark ∉ before ∧ text = before ++ mark :: after := by
  induction text generalizing before with
  | nil => simp [cutAt]
  | cons c rest induction =>
      rw [cutAt]
      by_cases same : c = mark
      · rw [if_pos same, same]
        cases before with
        | nil => simp [eq_comm]
        | cons head before => simp +contextual
      · rw [if_neg same]
        constructor
        · intro found
          obtain ⟨⟨front, _⟩, cut, whole⟩ := Option.map_eq_some_iff.mp found
          cases whole
          obtain ⟨free, rfl⟩ := induction.mp cut
          exact ⟨by simp [free, Ne.symm same], rfl⟩
        · rintro ⟨free, whole⟩
          cases before with
          | nil => exact absurd (List.cons.inj whole).1 same
          | cons head before =>
              cases whole
              rw [induction.mpr ⟨fun inside => free (List.mem_cons_of_mem _ inside), rfl⟩]
              rfl

namespace CommandLine

/-! ## Checks as they are asked for -/

def checkOptions : List String := ["year", "baseline", "input"]

def operandsOf (parts : List Argument) : List String :=
  parts.filterMap (fun
    | .operand text => some text
    | .option _ _ => none)

def valuesOf (name : String) (parts : List Argument) : List String :=
  parts.filterMap (fun
    | .operand _ => none
    | .option other value => if other = name then some value else none)

@[simp] theorem operands_of_operand (text : String) (parts : List Argument) :
    operandsOf (.operand text :: parts) = text :: operandsOf parts := rfl

@[simp] theorem operands_of_option (name value : String) (parts : List Argument) :
    operandsOf (.option name value :: parts) = operandsOf parts := rfl

@[simp] theorem values_of_operand (name text : String) (parts : List Argument) :
    valuesOf name (.operand text :: parts) = valuesOf name parts := rfl

@[simp] theorem values_of_option (name other value : String) (parts : List Argument) :
    valuesOf name (.option other value :: parts) =
      if other = name then value :: valuesOf name parts else valuesOf name parts := by
  unfold valuesOf
  by_cases same : other = name
  · simp [same]
  · simp [same]

/-- The text of an input has its name in front of the first equals sign and its value behind it, both perhaps
with blanks around them. -/
def IsInput (text : String) (input : String × Float) : Prop :=
  ∃ before after, '=' ∉ before ∧ text.toList = before ++ '=' :: after ∧
    input.1 = String.ofList (Text.trim before) ∧ Decimal.readFloat (Text.trim after) = some input.2

/-- The parts of a command line say what is to be checked.  A baseline is of use only with a year. -/
structure Describes (parts : List Argument) (asked : CheckArguments) : Prop where
  script : List.Forall₂ (fun text path => text ≠ "" ∧ text = path) (operandsOf parts) asked.script.toList
  year : List.Forall₂ (fun text year => Decimal.readInt32 text.toList = some year) (valuesOf "year" parts)
    asked.year.toList
  baseline : List.Forall₂ (fun text path => text ≠ "" ∧ text = path) (valuesOf "baseline" parts)
    asked.baseline.toList
  inputs : List.Forall₂ IsInput (valuesOf "input" parts) asked.inputs
  useful : asked.baseline.isSome → asked.year.isSome

theorem read_input_iff {text : String} {input : String × Float} :
    readInput text = some input ↔ IsInput text input := by
  obtain ⟨name, value⟩ := input
  unfold readInput IsInput
  simp only [Option.bind_eq_bind, Option.bind_eq_some_iff, Option.pure_def, Prod.exists, Text.cut_at_iff,
    Option.some.injEq, Prod.mk.injEq]
  constructor
  · rintro ⟨before, after, ⟨free, whole⟩, _, readable, rfl, rfl⟩
    exact ⟨before, after, free, whole, rfl, readable⟩
  · rintro ⟨before, after, free, whole, named, readable⟩
    exact ⟨before, after, ⟨free, whole⟩, value, readable, named.symm, rfl⟩

theorem filled_iff {α : Type} {fill : Option α → String → Option (Option α)} {reads : String → α → Prop}
    (free : ∀ text result, fill none text = some result ↔ ∃ value, reads text value ∧ result = some value)
    (full : ∀ value text, fill (some value) text = none) {texts : List String} {result : Option α} :
    texts.foldlM fill none = some result ↔ List.Forall₂ reads texts result.toList := by
  cases texts with
  | nil => cases result <;> simp
  | cons text rest =>
      simp only [List.foldlM_cons, Option.bind_eq_bind, Option.bind_eq_some_iff, free]
      cases rest with
      | nil => cases result <;> simp
      | cons next rest => cases result <;> simp [full]

theorem collected_iff {texts : List String} {front result : List (String × Float)} :
    texts.foldlM (fun inputs text => (readInput text).map (fun input => inputs ++ [input])) front = some result ↔
      ∃ inputs, List.Forall₂ IsInput texts inputs ∧ result = front ++ inputs := by
  induction texts generalizing front with
  | nil => simp [eq_comm]
  | cons text rest induction =>
      simp only [List.foldlM_cons, Option.bind_eq_bind, Option.bind_eq_some_iff, Option.map_eq_some_iff,
        read_input_iff, induction]
      constructor
      · rintro ⟨_, ⟨input, own, rfl⟩, inputs, others, rfl⟩
        exact ⟨input :: inputs, .cons own others, by simp⟩
      · rintro ⟨_, _ | ⟨own, others⟩, rfl⟩
        exact ⟨_, ⟨_, own, rfl⟩, _, others, by simp⟩

def fillYear (place : Option Int) (text : String) : Option (Option Int) := do
  let year ← Decimal.readInt32 text.toList
  if place.isSome then none else pure (some year)

theorem accept_year (start : CheckArguments) (value : String) :
    acceptCheck start (.option "year" value) =
      (fillYear start.year value).map (fun place => { start with year := place }) := by
  simp only [acceptCheck, fillYear]
  cases Decimal.readInt32 value.toList with
  | none => rfl
  | some year => cases start.year <;> rfl

theorem accepted_iff {parts : List Argument} {start asked : CheckArguments}
    (known : ∀ name value, Argument.option name value ∈ parts → name ∈ checkOptions) :
    parts.foldlM acceptCheck start = some asked ↔
      (operandsOf parts).foldlM fillPath start.script = some asked.script ∧
      (valuesOf "year" parts).foldlM fillYear start.year = some asked.year ∧
      (valuesOf "baseline" parts).foldlM fillPath start.baseline = some asked.baseline ∧
      (valuesOf "input" parts).foldlM (fun inputs text => (readInput text).map (fun input => inputs ++ [input]))
        start.inputs = some asked.inputs := by
  induction parts generalizing start with
  | nil =>
      cases start
      cases asked
      simp [operandsOf, valuesOf]
  | cons part rest induction =>
      have others (start : CheckArguments) := @induction start
        (fun name value inside => known name value (List.mem_cons_of_mem _ inside))
      rw [List.foldlM_cons]
      cases part with
      | operand text =>
          cases filled : fillPath start.script text with
          | none => simp [acceptCheck, filled]
          | some place => simp [acceptCheck, filled, others]
      | option name value =>
          have listed := known name value List.mem_cons_self
          simp only [checkOptions, List.mem_cons, List.not_mem_nil, or_false] at listed
          rcases listed with rfl | rfl | rfl
          · cases filled : fillYear start.year value with
            | none => simp [accept_year, filled]
            | some place => simp [accept_year, filled, others]
          · cases filled : fillPath start.baseline value with
            | none => simp [acceptCheck, filled]
            | some place => simp [acceptCheck, filled, others]
          · cases filled : readInput value with
            | none => simp [acceptCheck, filled]
            | some input => simp [acceptCheck, filled, others]

theorem path_filled_iff {text : String} {result : Option String} :
    fillPath none text = some result ↔ ∃ path, (text ≠ "" ∧ text = path) ∧ result = some path := by
  by_cases visible : text = ""
  · simp [fillPath, visible]
  · simp [fillPath, visible, @eq_comm _ result]

theorem year_filled_iff {text : String} {result : Option Int} :
    fillYear none text = some result ↔
      ∃ year, Decimal.readInt32 text.toList = some year ∧ result = some year := by
  simp [fillYear, Option.bind_eq_some_iff, @eq_comm _ result]

theorem described_iff {parts : List Argument} {asked : CheckArguments}
    (known : ∀ name value, Argument.option name value ∈ parts → name ∈ checkOptions) :
    parts.foldlM acceptCheck {} = some asked ∧ (asked.baseline.isSome → asked.year.isSome) ↔
      Describes parts asked := by
  rw [accepted_iff known, filled_iff (fun _ _ => path_filled_iff) (fun _ _ => rfl),
    filled_iff (fun _ _ => path_filled_iff) (fun _ _ => rfl),
    filled_iff (fun _ _ => year_filled_iff) (by simp [fillYear]), collected_iff]
  simp only [List.nil_append, exists_eq_right']
  constructor
  · rintro ⟨⟨script, year, baseline, inputs⟩, useful⟩
    exact ⟨script, year, baseline, inputs, useful⟩
  · rintro ⟨script, year, baseline, inputs, useful⟩
    exact ⟨⟨script, year, baseline, inputs⟩, useful⟩

/-- A command line asks for a check exactly if it is written as parts that describe one. -/
theorem check_read_iff {arguments : List String} {asked : CheckArguments} :
    Invocation.read ("check" :: arguments) = .command (.check asked) ↔
      ∃ parts, Written checkOptions arguments parts ∧ Describes parts asked := by
  have nameable : ∀ name ∈ checkOptions, Nameable name := by
    simp [checkOptions, Nameable]
  have read : Invocation.read ("check" :: arguments) = readCheck arguments := rfl
  have options : [⟨"year", none⟩, ⟨"baseline", none⟩, ⟨"input", none⟩] = plainOptions checkOptions := rfl
  rw [read, readCheck, options]
  constructor
  · intro command
    split at command
    next refusal refused => cases refusal <;> cases command
    next found taken =>
        split at command
        · cases command
        · cases command
          obtain ⟨parts, written, accepted⟩ := taken_as_written taken
          refine ⟨parts, written, (described_iff (written_options written)).mp ⟨accepted, fun given => ?_⟩⟩
          simp_all [Option.isSome_iff_ne_none]
  · rintro ⟨parts, written, describes⟩
    obtain ⟨accepted, useful⟩ := (described_iff (written_options written)).mpr describes
    rw [written_are_taken nameable written accepted]
    dsimp only
    rw [if_neg]
    simpa [Option.isSome_iff_ne_none] using useful

/-! ## The state on which a script is started -/

def runOutcome : EStateM.Result (Halt RuntimeError) World Unit → CheckOutcome
  | .ok _ world => .ok (inspectedLines world.state.inspected ++ "ok\n")
  | .error (.failure error) _ => refuse error.message
  | .error (.breakdown fault) _ => .error ⟨.breakdown, fault.message⟩

/-- The state of a check with the value of the command's own lever published. -/
def checkStart (year : Int) (regions : RegionTable) (inputs : List (String × Float)) : State :=
  { checkState year regions inputs with inputs := (SortedMap.ofList inputs).insert "script" 0.0 }

def GivenLast (inputs : List (String × Float)) (name : String) (value : Float) : Prop :=
  ∃ before after, inputs = before ++ (name, value) :: after ∧ ∀ later ∈ after, later.1 ≠ name

theorem registered_script (source : String) :
    (checkRegistry source).find? "script" =
      some (({ name := "script", script := source } : LeverDefinition).toLever {}) := by
  simp [checkRegistry, LeverRegistry.register, LeverRegistry.empty, LeverRegistry.find?]

theorem check_runs {asked : CheckArguments} {year : Int} {source : String} {program : Program}
    {content : Option FileContent} {regions : RegionTable} (dated : asked.year = some year)
    (compiled : compile {} source = .program program) (data : checkRegions year content = .ok regions)
    (seed : UInt64) :
    check asked source seed content =
      runOutcome (program.run ⟨checkStart year regions asked.inputs, Random.ChaCha.source seed 0⟩) := by
  simp only [check, compiled, Compiled.errors, dated, data, Except.bind, bind, checkOn, LeverRegistry.check,
    registered_script, LeverDefinition.toLever]
  -- the registry has one lever, so its values are written over the inputs by one insertion
  have start : ({ (checkState year regions asked.inputs).resetScratch with
      inputs := (checkState year regions asked.inputs).resetScratch.inputs.union (checkRegistry source).inputs } :
        State) = checkStart year regions asked.inputs := rfl
  rw [start]
  cases program.run ⟨checkStart year regions asked.inputs, Random.ChaCha.source seed 0⟩ with
  | ok _ world => rfl
  | error reason world => cases reason <;> rfl

theorem given_last_iff {inputs : List (String × Float)} {name : String} {value : Float} :
    (SortedMap.ofList inputs).get? name = some value ↔ GivenLast inputs name value := by
  have nothing : (SortedMap.empty : NameMap Float).get? name = none := rfl
  rw [SortedMap.ofList, SortedMap.get_insert_last, nothing, Option.or_none, Option.map_eq_some_iff]
  simp only [List.find?_eq_some_iff_append, Prod.exists]
  constructor
  · rintro ⟨own, held, ⟨same, after, before, whole, others⟩, rfl⟩
    obtain rfl : own = name := by simpa using same
    refine ⟨before.reverse, after.reverse, ?_, fun later inside => ?_⟩
    · simpa using congrArg List.reverse whole
    · simpa using others later (List.mem_reverse.mp inside)
  · rintro ⟨before, after, rfl, others⟩
    exact ⟨name, value, ⟨by simp, after.reverse, before.reverse, by simp, by simpa using others⟩, rfl⟩

/-- The script is started on the frame of the year with the inputs that are given on the command line, of each name
the last one, except for the name under which the command registers the script itself.  The value of this
lever, which nobody can set, stands in the place of any value that is given for its name. -/
theorem given_inputs_but_one_reach_the_script {arguments : List String} {parts : List Argument}
    {asked : CheckArguments} {year : Int} {source : String} {program : Program} {content : Option FileContent}
    {regions : RegionTable} (written : Written checkOptions arguments parts) (describes : Describes parts asked)
    (dated : asked.year = some year) (compiled : compile {} source = .program program)
    (data : checkRegions year content = .ok regions) (seed : UInt64) :
    Invocation.read ("check" :: arguments) = .command (.check asked) ∧
    ∃ start : State,
      check asked source seed content = runOutcome (program.run ⟨start, Random.ChaCha.source seed 0⟩) ∧
      { start with inputs := ∅ } = checkState year regions [] ∧
      (∀ name, name ≠ "script" → ∀ value,
        start.inputs.get? name = some value ↔ GivenLast asked.inputs name value) ∧
      start.inputs.get? "script" = some 0.0 := by
  refine ⟨check_read_iff.mpr ⟨parts, written, describes⟩, checkStart year regions asked.inputs,
    check_runs dated compiled data seed, rfl, fun name other value => ?_, SortedMap.get_insert_same _ _ _⟩
  rw [checkStart, SortedMap.get_insert_other _ other, given_last_iff]

def overlaidArguments : CheckArguments := { year := some 2030, inputs := [("script", 9.0)] }

theorem given_script_value_is_lost :
    Invocation.read ["check", "--year", "2030", "--input", "script=9"] = .command (.check overlaidArguments) ∧
    GivenLast overlaidArguments.inputs "script" 9.0 ∧
    check overlaidArguments "inspect in.script;" 7 none = .ok "in.script = 0\nok\n" := by
  refine ⟨by decide +kernel, ⟨[], [], rfl, nofun⟩, ?_⟩
  decide +kernel

def twiceGiven : CheckArguments :=
  { year := some 2030, inputs := [("tax", 1.0), ("script", 9.0), ("tax", 2.0)] }

def shownInputs : Program :=
  ⟨[.inspect "in.script" (.read (.parse "in.script")), .inspect "in.tax" (.read (.parse "in.tax"))], 10000⟩

theorem last_tax_is_shown :
    Invocation.read ["check", "--year=2030", "--input", "tax = 1", "--input=script=9", "--input", "tax= 2"] =
      .command (.check twiceGiven) ∧
    ∃ start : State,
      check twiceGiven "inspect in.script; inspect in.tax;" 7 none =
        runOutcome (shownInputs.run ⟨start, Random.ChaCha.source 7 0⟩) ∧
      start.inputs.get? "tax" = some 2.0 ∧ start.inputs.get? "script" = some 0.0 := by
  have read : Invocation.read ["check", "--year=2030", "--input", "tax = 1", "--input=script=9", "--input",
      "tax= 2"] = .command (.check twiceGiven) := by
    decide +kernel
  obtain ⟨parts, written, describes⟩ := check_read_iff.mp read
  have compiled : compile {} "inspect in.script; inspect in.tax;" = .program shownInputs := by decide +kernel
  have data : checkRegions 2030 none = .ok ∅ := rfl
  obtain ⟨_, start, runs, _, given, own⟩ :=
    given_inputs_but_one_reach_the_script written describes rfl compiled data 7
  refine ⟨read, start, runs, (given "tax" (by decide) 2.0).mpr ?_, own⟩
  exact ⟨[("tax", 1.0), ("script", 9.0)], [], rfl, nofun⟩

end CommandLine

end PolicyLevers
