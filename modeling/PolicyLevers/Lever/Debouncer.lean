import PolicyLevers.SortedMap

/-!
# Delayed checks

While a lever is edited, checks are delayed until the edits pause.  Every edit schedules a check of its
key anew and drops the one scheduled before.  Times are given by the caller, in milliseconds.
-/

namespace PolicyLevers

set_option autoImplicit false

inductive Trigger where
  | valueChanged
  | scriptEdited
  deriving DecidableEq, Repr

structure CheckDelays where
  value : Nat := 50
  script : Nat := 500
  deriving DecidableEq, Repr

def CheckDelays.of (delays : CheckDelays) : Trigger → Nat
  | .valueChanged => delays.value
  | .scriptEdited => delays.script

/-- The pending checks by key, each with the time at which it is due. -/
structure Debouncer where
  delays : CheckDelays
  pending : NameMap Nat

namespace Debouncer

def start (delays : CheckDelays) : Debouncer := ⟨delays, ∅⟩

def deadline (debouncer : Debouncer) (trigger : Trigger) (now : Nat) : Nat :=
  now + debouncer.delays.of trigger

/-- Schedules a check, in the place of one already pending for the key. -/
def schedule (debouncer : Debouncer) (key : String) (trigger : Trigger) (now : Nat) : Debouncer :=
  { debouncer with pending := debouncer.pending.insert key (debouncer.deadline trigger now) }

def isPending (debouncer : Debouncer) (key : String) : Bool := debouncer.pending.contains key

def cancel (debouncer : Debouncer) (key : String) : Debouncer :=
  { debouncer with pending := debouncer.pending.erase key }

def nextDeadline? (debouncer : Debouncer) : Option Nat := debouncer.pending.values.min?

/-- The keys due at some time, the earliest deadline first. -/
def due (debouncer : Debouncer) (now : Nat) : List String :=
  ((debouncer.pending.entries.filter (fun (_, deadline) => deadline ≤ now)).mergeSort
    (fun earlier later => earlier.2 ≤ later.2)).map (·.1)

def takeDue (debouncer : Debouncer) (now : Nat) : Debouncer :=
  { debouncer with
    pending := debouncer.pending.filterMap
      (fun _ deadline => if deadline ≤ now then none else some deadline) }

end Debouncer

end PolicyLevers
