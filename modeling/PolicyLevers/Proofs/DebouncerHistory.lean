import Mathlib.Data.List.Induction
import Mathlib.Order.Bounds.Basic
import PolicyLevers.Lever.Debouncer
import PolicyLevers.Proofs.MapLaws

/-!
# Delayed checks after any history

Which checks are pending is told by the calls alone: for each key it is the one scheduled last, unless it
was cancelled or taken since.  What is due at some time, what stays pending when it is taken, and when the
next check is due follow from that.
-/

namespace PolicyLevers

set_option autoImplicit false

inductive DebouncerCall where
  | schedule (key : String) (trigger : Trigger) (time : Nat)
  | cancel (key : String)
  | takeDue (now : Nat)

namespace Debouncer

def performed (debouncer : Debouncer) : DebouncerCall → Debouncer
  | .schedule key trigger time => debouncer.schedule key trigger time
  | .cancel key => debouncer.cancel key
  | .takeDue now => debouncer.takeDue now

def after (delays : CheckDelays) (calls : List DebouncerCall) : Debouncer :=
  calls.foldl performed (start delays)

theorem after_concat (delays : CheckDelays) (calls : List DebouncerCall) (call : DebouncerCall) :
    after delays (calls ++ [call]) = (after delays calls).performed call := by
  rw [after, List.foldl_append]
  rfl

theorem after_delays (delays : CheckDelays) (calls : List DebouncerCall) :
    (after delays calls).delays = delays := by
  induction calls using List.reverseRecOn with
  | nil => rfl
  | append_singleton calls call induction =>
      rw [after_concat]
      cases call <;> exact induction

/-- The call ends what is pending for a key: it schedules the key anew, cancels it or takes it. -/
def Settles (debouncer : Debouncer) (key : String) : DebouncerCall → Prop
  | .schedule other _ _ => other = key
  | .cancel other => other = key
  | .takeDue now => key ∈ debouncer.due now

/-- The check of a key that was scheduled last is due at some time, and none of the calls after it
cancelled or took it. -/
def Awaiting (delays : CheckDelays) (calls : List DebouncerCall) (key : String) (due : Nat) : Prop :=
  ∃ earlier trigger time later, calls = earlier ++ .schedule key trigger time :: later ∧
    due = time + (match trigger with
      | .valueChanged => delays.value
      | .scriptEdited => delays.script) ∧
    ∀ between call rest, later = between ++ call :: rest →
      ¬(after delays (earlier ++ .schedule key trigger time :: between)).Settles key call

theorem awaiting_concat {delays : CheckDelays} {calls : List DebouncerCall} {call : DebouncerCall}
    {key : String} {due : Nat} :
    Awaiting delays (calls ++ [call]) key due ↔
      (∃ trigger time, call = .schedule key trigger time ∧ due = time + delays.of trigger) ∨
        (Awaiting delays calls key due ∧ ¬(after delays calls).Settles key call) := by
  constructor
  · rintro ⟨earlier, trigger, time, later, whole, rfl, undisturbed⟩
    rcases List.eq_nil_or_concat later with rfl | ⟨before, last, rfl⟩
    · obtain ⟨_, last⟩ := List.append_inj' whole rfl
      exact Or.inl ⟨trigger, time, List.head_eq_of_cons_eq last, rfl⟩
    · rw [List.concat_eq_append, ← List.cons_append, ← List.append_assoc] at whole
      obtain ⟨rfl, last⟩ := List.append_inj' whole rfl
      obtain rfl := List.head_eq_of_cons_eq last
      refine Or.inr ⟨⟨earlier, trigger, time, before, rfl, rfl, ?_⟩, ?_⟩
      · rintro between other rest rfl
        exact undisturbed between other (rest ++ [call]) (by simp)
      · exact undisturbed before call [] (by simp)
  · rintro (⟨trigger, time, rfl, rfl⟩ | ⟨⟨earlier, trigger, time, later, rfl, rfl, undisturbed⟩, spared⟩)
    · exact ⟨calls, trigger, time, [], rfl, rfl, by simp⟩
    · refine ⟨earlier, trigger, time, later ++ [call], by simp, rfl, ?_⟩
      intro between other rest split
      rcases List.eq_nil_or_concat rest with rfl | ⟨before, last, rfl⟩
      · obtain ⟨rfl, last⟩ := List.append_inj' split rfl
        obtain rfl := List.head_eq_of_cons_eq last
        exact spared
      · rw [List.concat_eq_append, ← List.cons_append, ← List.append_assoc] at split
        obtain ⟨rfl, _⟩ := List.append_inj' split rfl
        exact undisturbed between other before rfl

/-! ## What is due -/

theorem mem_due_iff {debouncer : Debouncer} {now : Nat} {key : String} :
    key ∈ debouncer.due now ↔
      ∃ deadline, debouncer.pending.get? key = some deadline ∧ deadline ≤ now := by
  simp only [due, List.mem_map, List.mem_mergeSort, List.mem_filter, decide_eq_true_eq]
  constructor
  · rintro ⟨⟨other, deadline⟩, ⟨member, passed⟩, rfl⟩
    exact ⟨deadline, (SortedMap.mem_iff_lookup debouncer.pending.ascending _ _).mp member, passed⟩
  · rintro ⟨deadline, found, passed⟩
    exact ⟨(key, deadline),
      ⟨(SortedMap.mem_iff_lookup debouncer.pending.ascending _ _).mpr found, passed⟩, rfl⟩

theorem due_distinct (debouncer : Debouncer) (now : Nat) : (debouncer.due now).Nodup := by
  unfold due
  rw [((List.mergeSort_perm _ _).map _).nodup_iff]
  exact (List.filter_sublist.map _).nodup debouncer.pending.keys_distinct

theorem due_ascending (debouncer : Debouncer) (now : Nat) :
    (debouncer.due now).Pairwise (fun earlier later => ∀ first second,
      debouncer.pending.get? earlier = some first → debouncer.pending.get? later = some second →
        first ≤ second) := by
  unfold due
  rw [List.pairwise_map]
  have sorted := @List.pairwise_mergeSort _ (fun earlier later : String × Nat => earlier.2 ≤ later.2)
    (fun a b c first second => by simp only [decide_eq_true_eq] at *; omega)
    (fun a b => by simp only [Bool.or_eq_true, decide_eq_true_eq]; omega)
    (debouncer.pending.entries.filter (fun entry => entry.2 ≤ now))
  have held : ∀ entry ∈ debouncer.pending.entries,
      debouncer.pending.get? entry.1 = some entry.2 := fun entry member =>
    (SortedMap.mem_iff_lookup debouncer.pending.ascending _ _).mp member
  refine sorted.imp_of_mem ?_
  intro earlier later earlierMember laterMember ordered first second firstHeld secondHeld
  rw [held earlier (List.mem_filter.mp (List.mem_mergeSort.mp earlierMember)).1] at firstHeld
  rw [held later (List.mem_filter.mp (List.mem_mergeSort.mp laterMember)).1] at secondHeld
  obtain rfl := Option.some.inj firstHeld
  obtain rfl := Option.some.inj secondHeld
  simpa using ordered

theorem next_deadline_iff {debouncer : Debouncer} {deadline : Nat} :
    debouncer.nextDeadline? = some deadline ↔
      IsLeast {due | ∃ key, debouncer.pending.get? key = some due} deadline := by
  unfold nextDeadline? IsLeast lowerBounds
  rw [List.min?_eq_some_iff, SortedMap.mem_values]
  apply and_congr_right
  intro _
  simp only [SortedMap.mem_values, Set.mem_ofPred_eq]

/-! ## One call -/

/-- After a call a key has the deadline that the call gave it, or the one it had if the call did not settle
it. -/
theorem get_performed (debouncer : Debouncer) (call : DebouncerCall) (key : String) (deadline : Nat) :
    (debouncer.performed call).pending.get? key = some deadline ↔
      (∃ trigger time, call = .schedule key trigger time ∧
          deadline = time + debouncer.delays.of trigger) ∨
        (debouncer.pending.get? key = some deadline ∧ ¬debouncer.Settles key call) := by
  cases call with
  | schedule other trigger time =>
      by_cases same : key = other
      · subst same
        simp [performed, schedule, Settles, Debouncer.deadline, eq_comm]
      · simp [performed, schedule, Settles, SortedMap.get_insert, same, Ne.symm same]
  | cancel other =>
      by_cases same : key = other
      · simp [performed, cancel, Settles, SortedMap.get_erase, same]
      · simp [performed, cancel, Settles, SortedMap.get_erase, same, Ne.symm same]
  | takeDue now =>
      simp only [performed, takeDue, SortedMap.get_filter_map, Option.bind_eq_some_iff, Settles,
        mem_due_iff, reduceCtorEq, false_and, exists_false, false_or]
      constructor
      · rintro ⟨held, found, kept⟩
        by_cases passed : held ≤ now
        · simp [passed] at kept
        · obtain rfl : held = deadline := by simpa [passed] using kept
          refine ⟨found, ?_⟩
          rintro ⟨other, same, early⟩
          obtain rfl : held = other := Option.some.inj (found.symm.trans same)
          exact passed early
      · rintro ⟨found, spared⟩
        refine ⟨deadline, found, if_neg ?_⟩
        exact fun passed => spared ⟨deadline, found, passed⟩

/-! ## Histories -/

/-- What is pending is told by the calls. -/
theorem get_after_iff {delays : CheckDelays} {key : String} {deadline : Nat}
    (calls : List DebouncerCall) :
    (after delays calls).pending.get? key = some deadline ↔ Awaiting delays calls key deadline := by
  induction calls using List.reverseRecOn with
  | nil =>
      constructor
      · intro found
        cases found
      · rintro ⟨earlier, _, _, _, whole, _⟩
        cases earlier <;> cases whole
  | append_singleton calls call induction =>
      rw [after_concat, get_performed, awaiting_concat, induction, after_delays]

theorem due_after_iff {delays : CheckDelays} {calls : List DebouncerCall} {now : Nat} {key : String} :
    key ∈ (after delays calls).due now ↔
      ∃ deadline, Awaiting delays calls key deadline ∧ deadline ≤ now := by
  simp only [mem_due_iff, get_after_iff]

theorem awaiting_unique {delays : CheckDelays} {calls : List DebouncerCall} {key : String}
    {first second : Nat} (one : Awaiting delays calls key first)
    (other : Awaiting delays calls key second) : first = second :=
  Option.some.inj (((get_after_iff calls).mpr one).symm.trans ((get_after_iff calls).mpr other))

theorem get_take_due_iff {delays : CheckDelays} {calls : List DebouncerCall} {now : Nat}
    {key : String} {deadline : Nat} :
    ((after delays calls).takeDue now).pending.get? key = some deadline ↔
      Awaiting delays calls key deadline ∧ now < deadline := by
  change (performed _ (.takeDue now)).pending.get? key = some deadline ↔ _
  rw [← after_concat, get_after_iff, awaiting_concat]
  simp only [reduceCtorEq, false_and, exists_false, false_or, Settles, due_after_iff]
  apply and_congr_right
  intro awaited
  constructor
  · intro spared
    exact Nat.lt_of_not_le (fun passed => spared ⟨deadline, awaited, passed⟩)
  · rintro later ⟨other, same, passed⟩
    obtain rfl := awaiting_unique awaited same
    exact Nat.not_le_of_lt later passed

/-- Whether a call settles a key depends on nothing but the deadline of the key. -/
theorem settles_congr {first second : Debouncer} {key : String}
    (same : first.pending.get? key = second.pending.get? key) (call : DebouncerCall) :
    first.Settles key call ↔ second.Settles key call := by
  cases call with
  | takeDue now => simp only [Settles, mem_due_iff, same]
  | _ => exact Iff.rfl

/-- Whatever was called before a key is scheduled has no influence on the key any more. -/
theorem get_after_schedule (delays : CheckDelays) (earlier later : List DebouncerCall) (key : String)
    (trigger : Trigger) (time : Nat) :
    (after delays (earlier ++ .schedule key trigger time :: later)).pending.get? key =
      (after delays (.schedule key trigger time :: later)).pending.get? key := by
  induction later using List.reverseRecOn with
  | nil =>
      rw [after_concat, ← List.nil_append [DebouncerCall.schedule key trigger time], after_concat]
      simp [performed, schedule, deadline, after_delays]
  | append_singleton later call induction =>
      rw [← List.cons_append, ← List.append_assoc, after_concat, after_concat]
      apply Option.ext
      intro due
      rw [get_performed, get_performed, after_delays, after_delays, induction,
        settles_congr induction]

/-- A key that a call settled is awaited again only if it is scheduled later. -/
theorem scheduled_since {delays : CheckDelays} {earlier later : List DebouncerCall}
    {key : String} {now deadline : Nat} (taken : key ∈ (after delays earlier).due now)
    (awaited : Awaiting delays (earlier ++ .takeDue now :: later) key deadline) :
    ∃ trigger time, .schedule key trigger time ∈ later := by
  obtain ⟨before, trigger, time, since, whole, _, undisturbed⟩ := awaited
  rcases List.append_eq_append_iff.mp whole with ⟨between, rfl, rest⟩ | ⟨between, rfl, rest⟩
  · cases between with
    | nil => cases rest
    | cons call more =>
        obtain ⟨rfl, rfl⟩ := List.cons.inj rest
        exact ⟨trigger, time, List.mem_append_right _ List.mem_cons_self⟩
  · cases between with
    | nil => cases rest
    | cons call more =>
        obtain ⟨rfl, rfl⟩ := List.cons.inj rest
        exact absurd taken (undisturbed more _ later rfl)

/-- What the calls tell about the pending checks.  The keys due are those whose last schedule was neither
cancelled nor taken since and is due by now, each once and the earliest deadline first.  A schedule that a
later one supersedes has no influence any more, and a key that was taken comes again only if it was
scheduled again.  What is not due stays pending, and the next deadline is the least one of it. -/
theorem pending_checks_tell_their_history (delays : CheckDelays) (calls : List DebouncerCall)
    (now : Nat) :
    (∀ key, key ∈ (after delays calls).due now ↔
      ∃ deadline, Awaiting delays calls key deadline ∧ deadline ≤ now) ∧
    ((after delays calls).due now).Nodup ∧
    ((after delays calls).due now).Pairwise (fun earlier later => ∀ first second,
      Awaiting delays calls earlier first → Awaiting delays calls later second → first ≤ second) ∧
    (∀ earlier key trigger time later, calls = earlier ++ .schedule key trigger time :: later →
      (key ∈ (after delays calls).due now ↔
        key ∈ (after delays (.schedule key trigger time :: later)).due now)) ∧
    (∀ earlier key time later, calls = earlier ++ .takeDue time :: later →
      key ∈ (after delays earlier).due time → key ∈ (after delays calls).due now →
        ∃ trigger scheduled, .schedule key trigger scheduled ∈ later) ∧
    (∀ key deadline, ((after delays calls).takeDue now).pending.get? key = some deadline ↔
      Awaiting delays calls key deadline ∧ now < deadline) ∧
    (∀ deadline, ((after delays calls).takeDue now).nextDeadline? = some deadline ↔
      IsLeast {later | ∃ key, Awaiting delays calls key later ∧ now < later} deadline) := by
  refine ⟨fun key => due_after_iff, due_distinct _ _, ?_, ?_, ?_,
    fun key deadline => get_take_due_iff, ?_⟩
  · simpa only [get_after_iff] using due_ascending (after delays calls) now
  · rintro earlier key trigger time later rfl
    rw [mem_due_iff, mem_due_iff, get_after_schedule]
  · rintro earlier key time later rfl taken again
    obtain ⟨deadline, awaited, _⟩ := due_after_iff.mp again
    exact scheduled_since taken awaited
  · intro deadline
    simp only [next_deadline_iff, get_take_due_iff]

/-- An edit before the deadline puts the check off. -/
example :
    (after {} [.schedule "a" .scriptEdited 0, .schedule "a" .scriptEdited 300]).due 600 = [] ∧
      (after {} [.schedule "a" .scriptEdited 0, .schedule "a" .scriptEdited 300]).due 800 = ["a"] := by
  decide +kernel

end Debouncer

end PolicyLevers
