import PolicyLevers.Proofs.ProgramEffects

/-!
# What a distribution leaves behind

A distribution first finds the value and the weight of every listing and then writes, so what it leaves
behind is told by what stood there before the first write.  Every listing is written from that value.  Of
several listings of one location, under whatever spelling, the last one therefore decides, and the parts of
the others are lost.
-/

namespace PolicyLevers

set_option autoImplicit false

open Running

/-- What the listings of a distribution are found to be in one state, while words are drawn from a source:
their values, and their weights, which are their values where none are given. -/
inductive Weighed (repeatLimit : Nat) (state : State) :
    Random.WordSource → List (Path × Option Expression) → List Portion → Random.WordSource → Prop where
  | nil (source : Random.WordSource) : Weighed repeatLimit state source [] [] source
  | bare {path : Path} {before : Float} {source final : Random.WordSource}
      {rest : List (Path × Option Expression)} {portions : List Portion}
      (found : state.get path = .ok before)
      (others : Weighed repeatLimit state source rest portions final) :
      Weighed repeatLimit state source ((path, none) :: rest) (⟨path, before, before⟩ :: portions) final
  | weighted {path : Path} {before value : Float} {weight : Expression}
      {source next final : Random.WordSource} {rest : List (Path × Option Expression)}
      {portions : List Portion} (found : state.get path = .ok before)
      (weighed : weight.evaluate repeatLimit state source = .ok value next)
      (others : Weighed repeatLimit state next rest portions final) :
      Weighed repeatLimit state source ((path, some weight) :: rest)
        (⟨path, before, value⟩ :: portions) final

namespace Weighed

variable {repeatLimit : Nat} {state : State} {source final : Random.WordSource}
  {targets : List (Path × Option Expression)} {portions : List Portion}

theorem length_eq (weighed : Weighed repeatLimit state source targets portions final) :
    portions.length = targets.length := by
  induction weighed with
  | nil => rfl
  | bare _ _ induction => simp [induction]
  | weighted _ _ _ induction => simp [induction]

theorem found (weighed : Weighed repeatLimit state source targets portions final) :
    ∀ portion ∈ portions, state.get portion.path = .ok portion.before := by
  induction weighed with
  | nil => simp
  | bare found _ induction => simpa using ⟨found, induction⟩
  | weighted found _ _ induction => simpa using ⟨found, induction⟩

end Weighed

theorem reading_ok {α : Type} {read : State → Drawing α} {world after : World} {value : α}
    (done : reading read world = .ok value after) :
    read world.state world.source = .ok value after.source := by
  unfold reading at done
  cases outcome : read world.state world.source with
  | ok result source =>
      simp only [outcome] at done
      cases done
      rfl
  | error halt source => simp [outcome] at done

theorem read_portions_weighed {repeatLimit : Nat} {targets : List (Path × Option Expression)}
    {world after : World} {portions : List Portion}
    (found : readPortions repeatLimit targets world = .ok portions after) :
    Weighed repeatLimit world.state world.source targets portions after.source ∧
      after.state = world.state := by
  refine ⟨?_, (keeps_read_portions repeatLimit targets).ok found⟩
  induction targets generalizing world portions with
  | nil =>
      cases found
      exact .nil _
  | cons target rest induction =>
      obtain ⟨path, weight⟩ := target
      rw [read_portions_cons] at found
      obtain ⟨before, here, read, afterRead⟩ := bind_ok_iff.mp found
      obtain ⟨present, rfl⟩ := get_ok_iff.mp read
      obtain ⟨value, middle, weighed, afterWeight⟩ := bind_ok_iff.mp afterRead
      obtain ⟨others, _, othersFound, done⟩ := bind_ok_iff.mp afterWeight
      have kept := (keeps_weigh repeatLimit before weight).ok weighed
      obtain ⟨rfl, rfl⟩ : ⟨path, before, value⟩ :: others = portions ∧ _ = after := by
        simpa [pure, EStateM.pure] using done
      have later := induction othersFound
      rw [kept] at later
      cases weight with
      | none =>
          cases weighed
          exact .bare present later
      | some expression =>
          rw [weigh] at weighed
          exact .weighted present (reading_ok weighed) later

/-! ## Writing -/

def lastWritten? (location : Location) (portions : List Portion) : Option Portion :=
  portions.reverse.find? (fun portion =>
    portion.path.location? = some location && portion.before != 0.0)

theorem last_written_cons (location : Location) (portion : Portion) (rest : List Portion) :
    lastWritten? location (portion :: rest) = (lastWritten? location rest).or
      (if portion.path.location? = some location ∧ (portion.before != 0.0) = true then some portion
        else none) := by
  unfold lastWritten?
  rw [List.reverse_cons, List.find?_append]
  congr 1
  by_cases leads : portion.path.location? = some location <;>
    by_cases moves : (portion.before != 0.0) = true <;> simp [leads, moves]

/-- Writing leaves at every location what the last portion written there says. -/
theorem write_portions_numbers {amount : Float} {shareOf : Portion → Float} {portions : List Portion}
    {world after : World} (readable : ∀ portion ∈ portions, world.state.Readable portion.path)
    (done : writePortions amount shareOf portions world = .ok () after) :
    after.source = world.source ∧ after.state.inspected = world.state.inspected ∧
      ∀ location, after.state.numberAt? location =
        (lastWritten? location portions).elim (world.state.numberAt? location)
          (fun portion => some (portion.before + amount * shareOf portion)) := by
  induction portions generalizing world with
  | nil =>
      cases done
      exact ⟨rfl, rfl, fun _ => rfl⟩
  | cons portion rest induction =>
      rw [write_portions_cons] at done
      by_cases moves : (portion.before != 0.0) = true
      · rw [if_pos moves] at done
        obtain ⟨_, middle, write, further⟩ := bind_ok_iff.mp done
        obtain ⟨state, stored, rfl⟩ := writing_ok_iff.mp write
        obtain ⟨current, found⟩ := readable portion (by simp)
        obtain ⟨written, same, keeps⟩ := State.set_readable
          (portion.before + amount * shareOf portion) ⟨current, found⟩
        obtain rfl : state = written := Except.ok.inj (stored.symm.trans same)
        obtain ⟨source, inspected, numbers⟩ :=
          induction (fun other member => keeps other.path (readable other (by simp [member]))) further
        obtain ⟨place, leads, _⟩ := State.get_ok_iff.mp found
        obtain ⟨stillInspected, overwritten⟩ := State.overwritten leads found stored
        refine ⟨source, inspected.trans stillInspected, ?_⟩
        intro location
        rw [numbers, last_written_cons, overwritten]
        cases lastWritten? location rest with
        | some later => rfl
        | none =>
            by_cases here : location = place
            · simp [leads, here, moves]
            · simp [leads, here, Ne.symm here]
      · rw [if_neg moves] at done
        obtain ⟨source, inspected, numbers⟩ :=
          induction (fun other member => readable other (by simp [member])) done
        refine ⟨source, inspected, ?_⟩
        intro location
        rw [numbers, last_written_cons, if_neg (fun both => moves both.2), Option.or_none]

/-- The last listing of a location is the one that is written, unless its value is zero. -/
theorem last_written_listing {earlier later : List Portion} {portion : Portion} {location : Location}
    (leads : portion.path.location? = some location)
    (last : ∀ other ∈ later, other.path.location? ≠ some location)
    (agree : ∀ other ∈ earlier, other.path.location? = some location →
      other.before = portion.before) :
    lastWritten? location (earlier ++ portion :: later) =
      if portion.before == 0.0 then none else some portion := by
  unfold lastWritten?
  rw [List.reverse_append, List.reverse_cons, List.append_assoc, List.find?_append]
  have afterwards : later.reverse.find? (fun portion =>
      portion.path.location? = some location && portion.before != 0.0) = none := by
    rw [List.find?_eq_none]
    intro other member
    simp [last other (List.mem_reverse.mp member)]
  rw [afterwards, Option.none_or, List.singleton_append, List.find?_cons]
  by_cases zero : (portion.before == 0.0) = true
  · have before : earlier.reverse.find? (fun portion =>
        portion.path.location? = some location && portion.before != 0.0) = none := by
      rw [List.find?_eq_none]
      intro other member
      by_cases here : other.path.location? = some location
      · simp [here, agree other (List.mem_reverse.mp member) here, bne, zero]
      · simp [here]
    rw [before, zero]
    simp [bne, zero]
  · simp [leads, bne, zero]

theorem share_formula (split : Script.Split) (portions : List Portion) (portion : Portion) :
    share split portions portion =
      if split = .proportional ∧ ((portions.map Portion.weight).foldl (· + ·) (-0.0) == 0.0) = false then
        portion.weight / (portions.map Portion.weight).foldl (· + ·) (-0.0)
      else 1.0 / Float.ofNat portions.length := by
  cases split <;> simp [share, bne, total]

/-- What a distribution leaves behind that has something to distribute.  All listings are valued and
weighed in the state before the first write.  A location that is not listed or whose value is zero stays as
it is; any other one has the part of its last listing added to its value, and nothing of its other
listings. -/
theorem distributions_add_last_parts {repeatLimit : Nat} {value : Expression}
    {targets : List (Path × Option Expression)} {split : Script.Split} {world after : World}
    {amount : Float} {source : Random.WordSource}
    (evaluated : value.evaluate repeatLimit world.state world.source = .ok amount source)
    (large : ¬amount.abs < distributeThreshold)
    (done : (Instruction.distribute value targets split).run repeatLimit world = .ok () after) :
    ∃ portions, Weighed repeatLimit world.state source targets portions after.source ∧
      after.state.inspected = world.state.inspected ∧
      (∀ location, (∀ portion ∈ portions, portion.path.location? ≠ some location) →
        after.state.numberAt? location = world.state.numberAt? location) ∧
      ∀ earlier portion later location, portions = earlier ++ portion :: later →
        portion.path.location? = some location →
        (∀ other ∈ later, other.path.location? ≠ some location) →
        world.state.numberAt? location = some portion.before ∧
          after.state.numberAt? location = some
            (if portion.before == 0.0 then portion.before
            else portion.before + amount *
              (if split = .proportional ∧ ((portions.map Portion.weight).foldl (· + ·) (-0.0) == 0.0) = false then
                portion.weight / (portions.map Portion.weight).foldl (· + ·) (-0.0)
              else 1.0 / Float.ofNat targets.length)) := by
  obtain ⟨result, ready, read, rest⟩ := bind_ok_iff.mp done
  have drawn := reading_ok read
  rw [evaluated] at drawn
  obtain ⟨rfl, rfl⟩ : amount = result ∧ source = ready.source := by simpa using drawn
  simp only [large, if_false] at rest
  obtain ⟨portions, middle, found, written⟩ := bind_ok_iff.mp rest
  have unread := (keeps_reading _).ok read
  have readable := read_portions_readable found
  obtain ⟨weighed, unchanged⟩ := read_portions_weighed found
  obtain ⟨undrawn, inspected, numbers⟩ := write_portions_numbers readable written
  rw [unread] at weighed unchanged
  rw [unchanged] at inspected numbers
  refine ⟨portions, undrawn ▸ weighed, inspected, ?_, ?_⟩
  · intro location unlisted
    have nowhere : lastWritten? location portions = none := by
      rw [lastWritten?, List.find?_eq_none]
      intro portion member
      simp [unlisted portion (List.mem_reverse.mp member)]
    rw [numbers, nowhere, Option.elim_none]
  · rintro earlier portion later location rfl leads last
    have held : ∀ other ∈ earlier ++ portion :: later, other.path.location? = some location →
        world.state.numberAt? location = some other.before := by
      intro other member here
      obtain ⟨place, same, held⟩ := State.get_ok_iff.mp (weighed.found other member)
      rwa [Option.some.inj (here.symm.trans same)]
    have before := held portion (by simp) leads
    have agree : ∀ other ∈ earlier, other.path.location? = some location →
        other.before = portion.before := by
      intro other member here
      exact Option.some.inj ((held other (by simp [member]) here).symm.trans before)
    refine ⟨before, ?_⟩
    rw [numbers, last_written_listing leads last agree]
    by_cases zero : (portion.before == 0.0) = true
    · rw [if_pos zero, if_pos zero, Option.elim_none, before]
    · rw [if_neg zero, if_neg zero, Option.elim_some, share_formula, weighed.length_eq]

def listedTwice : List (Path × Option Expression) := [(.parse "a", none), (.parse "local.a", none)]

def sixTwice : Instruction := .distribute (.number 6.0) listedTwice .linear

def tenWorld : World := ⟨{ State.empty with locals := .ofList [("a", 10.0)] }, .start (fun _ => 0)⟩

theorem last_listing_decides :
    ∃ after, sixTwice.run 10 tenWorld = .ok () after ∧
      after.state.numberAt? ⟨.locals, "a", []⟩ = some 13.0 := by
  obtain ⟨after, done⟩ : ∃ after, sixTwice.run 10 tenWorld = .ok () after := ⟨_, rfl⟩
  have evaluated : (Expression.number 6.0).evaluate 10 tenWorld.state tenWorld.source =
      .ok 6.0 tenWorld.source := rfl
  obtain ⟨portions, weighed, _, _, listed⟩ :=
    distributions_add_last_parts evaluated (by decide +kernel) done
  have ten : tenWorld.state.get (.parse "a") = .ok 10.0 := rfl
  have again : tenWorld.state.get (.parse "local.a") = .ok 10.0 := rfl
  generalize after.source = final at weighed
  cases weighed with
  | bare first others =>
      cases others with
      | bare second rest =>
          cases rest
          obtain rfl := Except.ok.inj (ten.symm.trans first)
          obtain rfl := Except.ok.inj (again.symm.trans second)
          have number := (listed [_] _ [] ⟨.locals, "a", []⟩ rfl rfl (by simp)).2
          exact ⟨after, done, number.trans (by decide +kernel)⟩

/-- Both halves of six are for the variable, which would be sixteen with them, but it gets one of them. -/
theorem repeated_listing_loses_a_part :
    ∃ after, sixTwice.run 10 tenWorld = .ok () after ∧
      after.state.get (.parse "a") = .ok 13.0 ∧
      listedTwice.foldl (fun number _ => number + 6.0 * (1.0 / Float.ofNat listedTwice.length)) 10.0 =
        16.0 ∧
      (13.0 : Float) ≠ 16.0 := by
  refine ⟨_, rfl, State.get_ok_iff.mpr ⟨⟨.locals, "a", []⟩, rfl, ?_⟩, ?_, ?_⟩
  all_goals decide +kernel

end PolicyLevers
