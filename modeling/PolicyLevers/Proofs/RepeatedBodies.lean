import PolicyLevers.Proofs.DirectInterpretation
import PolicyLevers.Proofs.RandomInfluence
import PolicyLevers.Proofs.WholeNumbers

/-!
# Repeated bodies

A body is evaluated as often as the whole part of its count says, every time with the words that the time before
has left.  The first evaluation that fails is the end of it; otherwise the values are taken in from the left.  A
count below one and a whole part beyond the limit are refused before any evaluation.
-/

namespace PolicyLevers

set_option autoImplicit false

open Decimal

/-! ## Counts -/

/-- The whole part of the count is beyond the limit; that of an infinity is beyond every limit. -/
def Exceeds (limit : Nat) (count : Float) : Prop :=
  count.isInf = true ∨ ∃ whole, WholePart count whole ∧ limit < whole

/-- A count has a number of repetitions or is refused. -/
theorem repetitions_cases {limit : Nat} (fits : Representable limit) (count : Float) :
    (repetitions? limit count = none ∧ (¬1.0 ≤ count ∨ Exceeds limit count)) ∨
      ∃ times, repetitions? limit count = some times ∧ 1.0 ≤ count ∧ ¬Exceeds limit count ∧
        WholePart count times ∧ 1 ≤ times ∧ times ≤ limit := by
  by_cases enough : 1.0 ≤ count
  · rcases at_least_one enough with infinite | ⟨mantissa, exponent, parts, least⟩
    · refine .inl ⟨?_, .inr (.inl infinite)⟩
      simp [repetitions?, infinite_not_finite infinite]
    · have whole := parts.whole_part_iff.mpr rfl
      generalize named : (Binary.ofParts mantissa exponent).whole = times at whole
      have visible : 1 ≤ times := by
        have above : (1 : ℚ) < times + 1 := least.trans_lt whole.2.2
        have step : 1 < times + 1 := by exact_mod_cast above
        omega
      have compared := parts.whole_at_most_iff fits (named ▸ visible)
      rw [named] at compared
      have truncated := parts.truncate
      rw [named] at truncated
      by_cases within : times ≤ limit
      · refine .inr ⟨times, ?_, enough, ?_, whole, visible, within⟩
        · have allowed := compared.mpr within
          rw [truncated] at allowed
          simp [repetitions?, enough, parts.finite, truncated, allowed]
        · rintro (infinite | ⟨other, also, beyond⟩)
          · exact absurd parts.finite (by simp [infinite_not_finite infinite])
          · have same := parts.whole_part_iff.mp also
            omega
      · refine .inl ⟨?_, .inr (.inr ⟨times, whole, by omega⟩)⟩
        have refused := mt compared.mp within
        rw [truncated] at refused
        simp [repetitions?, truncated, refused]
  · refine .inl ⟨?_, .inl enough⟩
    simp [repetitions?, enough]

/-! ## Bodies -/

inductive Evaluations (body : Drawing Float) :
    Random.WordSource → List Float → Random.WordSource → Prop where
  | none (source : Random.WordSource) : Evaluations body source [] source
  | more {source next last : Random.WordSource} {value : Float} {values : List Float}
      (here : body source = .ok value next) (later : Evaluations body next values last) :
      Evaluations body source (value :: values) last

theorem Evaluations.undrawn {body : Drawing Float} {source last : Random.WordSource} {values : List Float}
    (evaluated : Evaluations body source values last) (undrawn : body.Undrawn) :
    last = source ∧ ∃ value, values = List.replicate values.length value := by
  obtain ⟨result, outcome⟩ := undrawn
  have alike : last = source ∧ ∀ value ∈ values, result = .ok value := by
    induction evaluated with
    | none source => exact ⟨rfl, by simp⟩
    | @more source next last value values here later induction =>
        rw [outcome source] at here
        cases result with
        | error halt => cases here
        | ok settled =>
            cases here
            exact ⟨induction.1, List.forall_mem_cons.mpr ⟨rfl, induction.2⟩⟩
  refine ⟨alike.1, ?_⟩
  cases values with
  | nil => exact ⟨0.0, rfl⟩
  | cons value others =>
      refine ⟨value, List.eq_replicate_of_mem fun other member => ?_⟩
      have here := alike.2 value List.mem_cons_self
      exact (Except.ok.inj (here.symm.trans (alike.2 other member))).symm

/-- Taking in the values of repetitions ends with the last of them or at the first that fails. -/
theorem accumulate_evaluated (reducer : Script.Reducer) (body : Drawing Float) (times : Nat) (total : Float)
    (source : Random.WordSource) :
    ∃ values middle, Evaluations body source values middle ∧
      (values.length = times ∧
          accumulate reducer body times total source = .ok (values.foldl reducer.step total) middle ∨
        ∃ halt last, values.length < times ∧ body middle = .error halt last ∧
          accumulate reducer body times total source = .error halt last) := by
  -- each repetition starts from the total and the words that the one before has left
  induction times generalizing total source with
  | zero => exact ⟨[], source, .none source, .inl ⟨rfl, rfl⟩⟩
  | succ times induction =>
      cases here : body source with
      | error halt last =>
          exact ⟨[], source, .none source, .inr ⟨halt, last, Nat.succ_pos _, here, bind_of_error here _⟩⟩
      | ok value next =>
          have step : accumulate reducer body (times + 1) total source =
              accumulate reducer body times (reducer.step total value) next := bind_of_ok here _
          obtain ⟨values, middle, evaluated, ⟨length, done⟩ | ⟨halt, last, short, stops, failed⟩⟩ :=
            induction (reducer.step total value) next
          · exact ⟨value :: values, middle, .more here evaluated,
              .inl ⟨congrArg (· + 1) length, step.trans done⟩⟩
          · exact ⟨value :: values, middle, .more here evaluated,
              .inr ⟨halt, last, Nat.succ_lt_succ short, stops, step.trans failed⟩⟩

section Repeating

variable {limit : Nat} {count : Expression} {state : State} {source next : Random.WordSource} {number : Float}
  (counted : count.evaluate limit state source = .ok number next)

include counted

theorem repeated_refused (refused : repetitions? limit number = none) (reducer : Script.Reducer)
    (body : Expression) : (Expression.repeated reducer count body).evaluate limit state source =
      .error (.failure (.repeatCount number limit)) next := by
  refine (bind_of_ok counted _).trans ?_
  simp only [refused]
  rfl

theorem repeated_accepted {times : Nat} (accepted : repetitions? limit number = some times)
    (reducer : Script.Reducer) (body : Expression) :
    ∃ values middle, Evaluations (body.evaluate limit state) next values middle ∧
      (values.length = times ∧ (Expression.repeated reducer count body).evaluate limit state source =
          .ok (reducer.reduce values) middle ∨
        ∃ halt last, values.length < times ∧ body.evaluate limit state middle = .error halt last ∧
          (Expression.repeated reducer count body).evaluate limit state source = .error halt last) := by
  have steps : (Expression.repeated reducer count body).evaluate limit state source =
      (accumulate reducer (body.evaluate limit state) times reducer.start >>=
        fun total => pure (reducer.finish total times)) next := by
    refine (bind_of_ok counted _).trans ?_
    simp only [accepted]
  obtain ⟨values, middle, evaluated, ending⟩ :=
    accumulate_evaluated reducer (body.evaluate limit state) times reducer.start next
  refine ⟨values, middle, evaluated, ?_⟩
  rcases ending with ⟨rfl, done⟩ | ⟨halt, last, short, stops, failed⟩
  · refine .inl ⟨rfl, ?_⟩
    rw [steps, bind_of_ok done, Script.reduced_values]
    rfl
  · exact .inr ⟨halt, last, short, stops, steps.trans (bind_of_error failed _)⟩

end Repeating

/-- A repetition whose count fails ends with its failure.  A count below one or beyond the limit is refused, and
no word is drawn for the body.  Any other count says how often the body is evaluated, unless one evaluation
fails; if none does, the values are reduced.  Without draws they are all the same. -/
theorem bodies_are_repeated {limit : Nat} (fits : Representable limit) (reducer : Script.Reducer)
    (count body : Expression) (state : State) (source : Random.WordSource) :
    (∀ halt last, count.evaluate limit state source = .error halt last →
      (Expression.repeated reducer count body).evaluate limit state source = .error halt last) ∧
    ∀ number next, count.evaluate limit state source = .ok number next →
      (¬1.0 ≤ number ∨ Exceeds limit number →
        (Expression.repeated reducer count body).evaluate limit state source =
          .error (.failure (.repeatCount number limit)) next) ∧
      (1.0 ≤ number → ¬Exceeds limit number →
        ∃ times, WholePart number times ∧ 1 ≤ times ∧ times ≤ limit ∧
          ∃ values middle, Evaluations (body.evaluate limit state) next values middle ∧
            (body.drawFree = true → middle = next ∧ ∃ value, values = List.replicate values.length value) ∧
            (values.length = times ∧ (Expression.repeated reducer count body).evaluate limit state source =
                .ok (reducer.reduce values) middle ∨
              ∃ halt last, values.length < times ∧ body.evaluate limit state middle = .error halt last ∧
                (Expression.repeated reducer count body).evaluate limit state source = .error halt last)) := by
  refine ⟨fun halt last failed => bind_of_error failed _, fun number next counted => ?_⟩
  rcases repetitions_cases fits number with
    ⟨refused, why⟩ | ⟨times, accepted, enough, allowed, whole, visible, within⟩
  · refine ⟨fun _ => repeated_refused counted refused reducer body, fun enough allowed => ?_⟩
    exact absurd why (not_or.mpr ⟨not_not.mpr enough, allowed⟩)
  · refine ⟨fun why => absurd why (not_or.mpr ⟨not_not.mpr enough, allowed⟩), fun _ _ => ?_⟩
    obtain ⟨values, middle, evaluated, ending⟩ := repeated_accepted counted accepted reducer body
    exact ⟨times, whole, visible, within, values, middle, evaluated,
      fun free => evaluated.undrawn (evaluate_undrawn limit state free), ending⟩

def meanOfDraws (count : Float) : Expression :=
  .repeated .average (.number count) (.uniform (.number 0.0) (.number 1.0))

theorem two_draws_are_averaged :
    Representable 2 ∧
    (∃ values last, values.length = 2 ∧
      Evaluations ((Expression.uniform (.number 0.0) (.number 1.0)).evaluate 2 dicedWorld.state)
        dicedWorld.source values last ∧
      (meanOfDraws 2.5).evaluate 2 dicedWorld.state dicedWorld.source =
        .ok (Script.Reducer.average.reduce values) last) ∧
    (meanOfDraws 3.0).evaluate 2 dicedWorld.state dicedWorld.source =
      .error (.failure (.repeatCount 3.0 2)) dicedWorld.source := by
  have fits : Representable 2 := ⟨2, 0, by decide, by decide, rfl⟩
  have half : HasParts 2.5 (5 * 2 ^ 50) (-51) :=
    ⟨⟨by decide, by decide, by decide, by decide, by decide⟩, rfl⟩
  have three : HasParts 3.0 (3 * 2 ^ 51) (-51) :=
    ⟨⟨by decide, by decide, by decide, by decide, by decide⟩, rfl⟩
  have whole : WholePart 3.0 3 := three.whole_part_iff.mpr (by decide)
  have refused := ((bodies_are_repeated fits .average (.number 3.0)
    (.uniform (.number 0.0) (.number 1.0)) dicedWorld.state dicedWorld.source).2 3.0 dicedWorld.source rfl).1
    (.inr (.inr ⟨3, whole, by decide⟩))
  refine ⟨fits, ?_, refused⟩
  have allowed : ¬Exceeds 2 2.5 := by
    rintro (infinite | ⟨other, whole, beyond⟩)
    · cases infinite
    · obtain rfl := half.whole_part_iff.mp whole
      revert beyond
      decide
  obtain ⟨times, whole, _, _, values, last, evaluated, _, ⟨length, done⟩ | ⟨halt, final, _, _, failed⟩⟩ :=
    ((bodies_are_repeated fits .average (.number 2.5) (.uniform (.number 0.0) (.number 1.0))
      dicedWorld.state dicedWorld.source).2 2.5 dicedWorld.source rfl).2 (by decide +kernel) allowed
  · obtain rfl := half.whole_part_iff.mp whole
    exact ⟨values, last, length.trans (by decide), evaluated, done⟩
  · obtain ⟨value, after, runs⟩ : ∃ value after, (meanOfDraws 2.5).evaluate 2 dicedWorld.state
        dicedWorld.source = .ok value after := ⟨_, _, rfl⟩
    exact absurd (runs.symm.trans failed) (by simp)

end PolicyLevers
