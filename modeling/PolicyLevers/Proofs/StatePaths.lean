import PolicyLevers.Ledger.State
import PolicyLevers.Proofs.MapLaws

/-!
# Reads and writes through paths

What it takes for a path to be readable, and what a write to a readable path keeps.  Such a write
changes a number where a number was, so no other path stops or starts being readable.
-/

namespace PolicyLevers.State

set_option autoImplicit false

theorem get_flat_ok_iff {names : NameMap Float} {path : Path} {value : Float} :
    getFlat names path = .ok value ↔ path.rest = [] ∧ names.get? path.first = some value := by
  unfold getFlat
  cases names.get? path.first with
  | none => simp
  | some held => cases path.rest <;> simp

theorem get_ledger_ok_iff {ledger : NameMap LedgerEntry} {path : Path} {value : Float} :
    getLedger ledger path = .ok value ↔
      (path.rest = [] ∧ ledger.get? path.first = some (.number value)) ∨
        ∃ name attributes, path.rest = [name] ∧
          ledger.get? path.first = some (.region attributes) ∧ attributes.get? name = some value := by
  unfold getLedger
  cases entry : ledger.get? path.first with
  | none => simp
  | some held =>
      cases held with
      | number number => cases path.rest <;> simp
      | region attributes =>
          cases segments : path.rest with
          | nil => simp
          | cons name further =>
              cases found : attributes.get? name with
              | none => simp [found]
              | some number => cases further <;> simp [found]

def Readable (state : State) (path : Path) : Prop := ∃ value, state.get path = .ok value

theorem readable_of_get {state : State} {path : Path} {value : Float}
    (found : state.get path = .ok value) : state.Readable path := ⟨value, found⟩

theorem get_flat_insert {names : NameMap Float} {path : Path} (name : String) (value : Float)
    (readable : ∃ held, getFlat names path = .ok held) :
    ∃ held, getFlat (names.insert name value) path = .ok held := by
  obtain ⟨held, found⟩ := readable
  obtain ⟨bare, present⟩ := get_flat_ok_iff.mp found
  by_cases same : path.first = name
  · exact ⟨value, get_flat_ok_iff.mpr ⟨bare, by simp [same]⟩⟩
  · exact ⟨held, get_flat_ok_iff.mpr ⟨bare, by rw [SortedMap.get_insert_other _ same, present]⟩⟩

/-- Writing a number over a number keeps all paths into the ledger readable. -/
theorem get_ledger_insert_number {ledger : NameMap LedgerEntry} {path : Path} {name : String}
    {before : Float} (value : Float) (number : ledger.get? name = some (.number before))
    (readable : ∃ held, getLedger ledger path = .ok held) :
    ∃ held, getLedger (ledger.insert name (.number value)) path = .ok held := by
  obtain ⟨held, found⟩ := readable
  by_cases same : path.first = name
  · rcases get_ledger_ok_iff.mp found with ⟨bare, _⟩ | ⟨_, _, _, region, _⟩
    · exact ⟨value, get_ledger_ok_iff.mpr (Or.inl ⟨bare, by simp [same]⟩)⟩
    · rw [same, number] at region
      simp at region
  · refine ⟨held, get_ledger_ok_iff.mpr ?_⟩
    rw [SortedMap.get_insert_other _ same]
    exact get_ledger_ok_iff.mp found

theorem get_ledger_insert_attribute {ledger : NameMap LedgerEntry} {path : Path} {name : String}
    {attributes : Attributes} (key : String) (value : Float)
    (region : ledger.get? name = some (.region attributes))
    (readable : ∃ held, getLedger ledger path = .ok held) :
    ∃ held, getLedger (ledger.insert name (.region (attributes.insert key value))) path =
      .ok held := by
  obtain ⟨held, found⟩ := readable
  by_cases same : path.first = name
  · rcases get_ledger_ok_iff.mp found with ⟨_, number⟩ | ⟨other, others, segments, here, present⟩
    · rw [same, region] at number
      simp at number
    · rw [same, region] at here
      obtain rfl : attributes = others := by simpa using here
      by_cases written : other = key
      · exact ⟨value, get_ledger_ok_iff.mpr (Or.inr
          ⟨other, _, segments, by rw [same, SortedMap.get_insert_same], by simp [written]⟩)⟩
      · exact ⟨held, get_ledger_ok_iff.mpr (Or.inr
          ⟨other, _, segments, by rw [same, SortedMap.get_insert_same],
            by rw [SortedMap.get_insert_other _ written, present]⟩)⟩
  · refine ⟨held, get_ledger_ok_iff.mpr ?_⟩
    rw [SortedMap.get_insert_other _ same]
    exact get_ledger_ok_iff.mp found

theorem set_ledger_readable {ledger : NameMap LedgerEntry} {path : Path} (value : Float)
    (readable : ∃ held, getLedger ledger path = .ok held) :
    ∃ written, setLedger ledger path value = .ok written ∧
      ∀ other, (∃ held, getLedger ledger other = .ok held) →
        ∃ held, getLedger written other = .ok held := by
  obtain ⟨held, found⟩ := readable
  rcases get_ledger_ok_iff.mp found with ⟨bare, number⟩ | ⟨name, attributes, segments, region, _⟩
  · exact ⟨_, by simp [setLedger, bare],
      fun other others => get_ledger_insert_number value number others⟩
  · exact ⟨_, by simp [setLedger, segments, region],
      fun other others => get_ledger_insert_attribute name value region others⟩

theorem set_flat_readable {names : NameMap Float} {path : Path} (value : Float)
    (readable : ∃ held, getFlat names path = .ok held) :
    ∃ written, setFlat names path value = .ok written ∧
      ∀ other, (∃ held, getFlat names other = .ok held) →
        ∃ held, getFlat written other = .ok held := by
  obtain ⟨held, found⟩ := readable
  obtain ⟨bare, _⟩ := get_flat_ok_iff.mp found
  exact ⟨_, by simp [setFlat, bare], fun other others => get_flat_insert path.first value others⟩

/-- A readable path can be written, and the write keeps every readable path readable. -/
theorem set_readable {state : State} {path : Path} (value : Float) (readable : state.Readable path) :
    ∃ written, state.set path value = .ok written ∧
      ∀ other, state.Readable other → written.Readable other := by
  unfold Readable get at readable
  cases area : path.area with
  | none => simp [area] at readable
  | some part =>
      cases part with
      | ledger =>
          obtain ⟨ledger, written, keeps⟩ := set_ledger_readable value (by simpa [area] using readable)
          refine ⟨{ state with ledger := ledger }, by simp [set, area, written, Except.map], ?_⟩
          intro other others
          unfold Readable get at others ⊢
          split at others <;> first | exact keeps other others | exact others
      | _ =>
          obtain ⟨names, written, keeps⟩ := set_flat_readable value (by simpa [area] using readable)
          simp only [set, area, written, Except.map, Except.ok.injEq, exists_eq_left']
          intro other others
          unfold Readable get at others ⊢
          split at others <;> first | exact keeps other others | exact others

end PolicyLevers.State
