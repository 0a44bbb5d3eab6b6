import PolicyLevers.Proofs.DistributedShares
import PolicyLevers.Proofs.OrderedNumbers

/-!
# Limits hold

A limit finds its bounds before it reads its target, so a bound may speak of the target itself.  If all of them
are numbers and the bounds are in order, what stands at the target afterwards lies within the bounds.  A second
limit to the same numbers finds nothing to do.
-/

namespace PolicyLevers

set_option autoImplicit false

open Running Decimal

/-! ## Bounds -/

/-- No bound is above the number. -/
def AtLeast (low : Option Float) (value : Float) : Prop := ∀ bound ∈ low, bound ≤ value

def AtMost (high : Option Float) (value : Float) : Prop := ∀ bound ∈ high, value ≤ bound

/-- Bounds that are numbers, the lower one at most the upper one. -/
structure Bounding (low high : Option Float) : Prop where
  lowNumber : ∀ bound ∈ low, bound.isNaN = false
  highNumber : ∀ bound ∈ high, bound.isNaN = false
  ordered : ∀ bound ∈ low, AtMost high bound

section Clamping

variable {low high : Option Float} {value bound : Float}

theorem clamp_above (given : bound ∈ high) (violated : bound < value) :
    clamp low high value = bound := by
  cases given
  simp [clamp, violated]

theorem clamp_within (enough : AtLeast low value) (allowed : AtMost high value) :
    clamp low high value = value := by
  have lowKept : low.any (fun bound => value < bound) = false := by
    cases low with
    | none => rfl
    | some bound => simpa using not_less_of_at_most (enough bound rfl)
  have highKept : high.any (fun bound => value > bound) = false := by
    cases high with
    | none => rfl
    | some bound => simpa using not_less_of_at_most (allowed bound rfl)
  simp [clamp, lowKept, highKept]

namespace Bounding

variable (bounds : Bounding low high)

include bounds

theorem clamp_below (given : bound ∈ low) (violated : value < bound) :
    clamp low high value = bound := by
  -- the upper bound is looked at first, but a number below the lower one is not above it
  have highKept : high.any (fun limit => value > limit) = false := by
    cases high with
    | none => rfl
    | some limit =>
        have below := less_of_less_of_at_most violated (bounds.ordered bound given limit rfl)
        simpa using not_less_of_less below
  cases given
  simp [clamp, violated, highKept]

theorem within_or_violated (number : value.isNaN = false) :
    AtLeast low value ∧ AtMost high value ∨ (∃ bound ∈ low, value < bound) ∨
      ∃ bound ∈ high, bound < value := by
  by_cases below : ∃ bound ∈ low, value < bound
  · exact .inr (.inl below)
  by_cases above : ∃ bound ∈ high, bound < value
  · exact .inr (.inr above)
  refine .inl ⟨fun bound given => ?_, fun bound given => ?_⟩
  · exact at_most_of_not_less (bounds.lowNumber bound given) number (fun less => below ⟨bound, given, less⟩)
  · exact at_most_of_not_less number (bounds.highNumber bound given) (fun less => above ⟨bound, given, less⟩)

theorem clamped (number : value.isNaN = false) :
    AtLeast low (clamp low high value) ∧ AtMost high (clamp low high value) := by
  rcases bounds.within_or_violated number with ⟨enough, allowed⟩ | ⟨bound, given, less⟩ | ⟨bound, given, less⟩
  · rw [clamp_within enough allowed]
    exact ⟨enough, allowed⟩
  · rw [bounds.clamp_below given less]
    refine ⟨fun other also => ?_, bounds.ordered bound given⟩
    rw [Option.mem_unique also given]
    exact at_most_self (bounds.lowNumber bound given)
  · rw [clamp_above given less]
    refine ⟨fun other also => bounds.ordered other also bound given, fun other also => ?_⟩
    rw [Option.mem_unique also given]
    exact at_most_self (bounds.highNumber bound given)

end Bounding

end Clamping

/-! ## Limits -/

/-- An optional bound comes to a number in a state, or there is none and no word is drawn. -/
inductive BoundFound (repeatLimit : Nat) (state : State) :
    Random.WordSource → Option Expression → Option Float → Random.WordSource → Prop where
  | absent (source : Random.WordSource) : BoundFound repeatLimit state source none none source
  | given {bound : Expression} {number : Float} {source next : Random.WordSource}
      (evaluated : bound.evaluate repeatLimit state source = .ok number next) :
      BoundFound repeatLimit state source (some bound) (some number) next

theorem BoundFound.unique {repeatLimit : Nat} {state : State} {source next other : Random.WordSource}
    {bound : Option Expression} {first second : Option Float}
    (found : BoundFound repeatLimit state source bound first next)
    (also : BoundFound repeatLimit state source bound second other) : first = second ∧ next = other := by
  cases found with
  | absent =>
      cases also
      exact ⟨rfl, rfl⟩
  | given evaluated =>
      cases also with
      | given again =>
          rw [evaluated] at again
          cases again
          exact ⟨rfl, rfl⟩

theorem evaluate_optional_found {repeatLimit : Nat} {bound : Option Expression} {found : Option Float}
    {world after : World} (done : evaluateOptional repeatLimit bound world = .ok found after) :
    BoundFound repeatLimit world.state world.source bound found after.source ∧
      after.state = world.state := by
  refine ⟨?_, (keeps_evaluate_optional repeatLimit bound).ok done⟩
  cases bound with
  | none =>
      cases done
      exact .absent _
  | some expression =>
      obtain ⟨number, middle, read, finished⟩ := bind_ok_iff.mp done
      cases finished
      exact .given (reading_ok read)

theorem evaluate_optional_number (repeatLimit : Nat) (bound : Option Float) (world : World) :
    evaluateOptional repeatLimit (bound.map .number) world = .ok bound world := by
  cases bound <;> rfl

theorem State.get_same_location {state : State} {path other : Path} {value : Float}
    (found : state.get path = .ok value) (same : other.location? = path.location?) :
    state.get other = .ok value := by
  obtain ⟨location, leads, held⟩ := get_ok_iff.mp found
  exact get_ok_iff.mpr ⟨location, same.trans leads, held⟩

theorem State.set_found {state : State} {path : Path} {value : Float}
    (found : state.get path = .ok value) : state.set path value = .ok state := by
  unfold get at found
  unfold set
  cases area : path.area with
  | none => simp [area] at found
  | some part =>
      cases part with
      | ledger =>
          simp only [area] at found ⊢
          have stored : setLedger state.ledger path value = .ok state.ledger := by
            rw [set_ledger_ok_iff]
            rcases get_ledger_ok_iff.mp found with ⟨bare, held⟩ | ⟨name, attributes, one, here, held⟩
            · exact .inl ⟨bare, (SortedMap.insert_held held).symm⟩
            · refine .inr ⟨name, attributes, one, here, ?_⟩
              rw [SortedMap.insert_held held, SortedMap.insert_held here]
          rw [stored]
          rfl
      | _ =>
          simp only [area] at found ⊢
          obtain ⟨bare, held⟩ := get_flat_ok_iff.mp found
          rw [set_flat_ok_iff.mpr ⟨bare, (SortedMap.insert_held held).symm⟩]
          rfl

/-- A limit that the number at its target keeps leaves the world as it is. -/
theorem limit_kept {world : World} {target : Path} {low high : Option Float} {value : Float}
    (found : world.state.get target = .ok value) (kept : clamp low high value = value) (repeatLimit : Nat) :
    (Instruction.limit target (low.map .number) (high.map .number)).run repeatLimit world = .ok () world := by
  rw [Instruction.run, bind_of_ok (evaluate_optional_number repeatLimit low world),
    bind_of_ok (evaluate_optional_number repeatLimit high world),
    bind_of_ok (get_ok_iff.mpr ⟨found, rfl⟩), kept, Running.set, writing, State.set_found found]

/-- A limit that is done has found its bounds and after them its target, all in the state before.  If they are
numbers and the bounds are in order, the number that it leaves at the target is within the bounds: the old one if
that was, the violated bound otherwise.  Nothing else is changed.  The same location limited to the same numbers
again, whatever its spelling, is left alone and no words are drawn. -/
theorem limits_hold_afterwards {repeatLimit : Nat} {target : Path} {lower upper : Option Expression}
    {world after : World}
    (done : (Instruction.limit target lower upper).run repeatLimit world = .ok () after) :
    ∃ low high current between,
      BoundFound repeatLimit world.state world.source lower low between ∧
      BoundFound repeatLimit world.state between upper high after.source ∧
      world.state.get target = .ok current ∧
      (Bounding low high → current.isNaN = false →
        ∃ stored, world.state.OverwrittenAt after.state target stored ∧
          AtLeast low stored ∧ AtMost high stored ∧
          (AtLeast low current → AtMost high current → stored = current) ∧
          (∀ bound ∈ low, current < bound → stored = bound) ∧
          (∀ bound ∈ high, bound < current → stored = bound) ∧
          ∀ again anyLimit source, again.location? = target.location? →
            (Instruction.limit again (low.map .number) (high.map .number)).run anyLimit
              ⟨after.state, source⟩ = .ok () ⟨after.state, source⟩) := by
  obtain ⟨low, between, readLow, afterLow⟩ := bind_ok_iff.mp done
  obtain ⟨high, middle, readHigh, afterHigh⟩ := bind_ok_iff.mp afterLow
  obtain ⟨current, ready, read, write⟩ := bind_ok_iff.mp afterHigh
  obtain ⟨lowFound, lowKept⟩ := evaluate_optional_found readLow
  obtain ⟨highFound, highKept⟩ := evaluate_optional_found readHigh
  obtain ⟨found, rfl⟩ := get_ok_iff.mp read
  rw [lowKept] at highKept highFound
  obtain ⟨state, ran, written⟩ := set_over_number found (clamp low high current)
  rw [highKept] at found written
  rw [ran] at write
  cases write
  refine ⟨low, high, current, between.source, lowFound, highFound, found, fun bounds number => ?_⟩
  -- the second limit finds a number within the bounds
  obtain ⟨enough, allowed⟩ := bounds.clamped number
  refine ⟨clamp low high current, written, enough, allowed, clamp_within,
    fun bound => bounds.clamp_below, fun bound => clamp_above, ?_⟩
  intro again anyLimit source same
  exact limit_kept (State.get_same_location written.get same) (clamp_within enough allowed) anyLimit

/-- Bounds of which the upper one moves with the target, below it. -/
def belowItself : Instruction :=
  .limit (.parse "a") (some (.number 2.0)) (some (.binary .sub (.read (.parse "a")) (.number 4.0)))

theorem limited_below_itself :
    ∃ after, belowItself.run 10 tenWorld = .ok () after ∧ after.state.get (.parse "a") = .ok 6.0 ∧
      (Instruction.limit (.parse "local.a") (some (.number 2.0)) (some (.number 6.0))).run 10 after =
        .ok () after := by
  obtain ⟨after, done⟩ : ∃ after, belowItself.run 10 tenWorld = .ok () after := ⟨_, rfl⟩
  obtain ⟨low, high, current, between, lowFound, highFound, found, holds⟩ := limits_hold_afterwards done
  obtain rfl : 10.0 = current := Except.ok.inj found
  obtain ⟨rfl, rfl⟩ := lowFound.unique (.given rfl)
  obtain ⟨rfl, _⟩ := highFound.unique (.given rfl)
  have six : (10.0 : Float) - 4.0 = 6.0 := by decide +kernel
  change Bounding (some 2.0) (some (10.0 - 4.0)) → _ at holds
  rw [six] at holds
  have bounds : Bounding (some 2.0) (some 6.0) := by
    refine ⟨?_, ?_, ?_⟩ <;> simp [AtMost] <;> decide +kernel
  obtain ⟨stored, written, _, _, _, _, upper, again⟩ := holds bounds (by decide +kernel)
  obtain rfl : stored = 6.0 := upper _ rfl (by decide +kernel)
  exact ⟨after, done, written.get, again (.parse "local.a") 10 after.source (by decide +kernel)⟩

end PolicyLevers
