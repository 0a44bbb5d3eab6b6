import Mathlib.Data.List.Induction
import PolicyLevers.Projection.Frame
import PolicyLevers.Proofs.EarliestFailure

/-!
# Years of extended baselines

Extending a baseline gives a table to every year of the range, also when there is no line to extend: such
a year is present and its table has no region.  Neither extending nor normalizing can change whether
there is a line, so the records decide which of the years are empty.
-/

namespace PolicyLevers

set_option autoImplicit false

inductive BaselineStep where
  | trend (range : YearRange)
  | shares (range : YearRange)
  deriving DecidableEq, Repr

namespace BaselineStep

def apply (baseline : Baseline) : BaselineStep → Baseline
  | trend range => baseline.withTrend range
  | shares range => baseline.withNormalizedShares range

def Fills (year : Int) : BaselineStep → Prop
  | trend range => year ∈ range.years
  | shares _ => False

end BaselineStep

namespace Baseline

def prepared (records : List BaselineRecord) (steps : List BaselineStep) : Baseline :=
  steps.foldl BaselineStep.apply (ofRecords records)

/-- The attributes of a region in a year; none where there is no data. -/
def held (baseline : Baseline) (year : Int) (region : String) : Attributes :=
  ((baseline.regions? year).bind (fun table => table.get? region)).getD ∅

/-- No region has an attribute in any year, so there is no line to extend. -/
def Bare (baseline : Baseline) : Prop :=
  ∀ year region, (baseline.held year region).isEmpty = true

def trendTable (baseline : Baseline) (year : Int) : RegionTable :=
  baseline.lines.mapValues (fun _ names => names.mapValues (fun _ line => line.at (Decimal.ofInt year)))

variable {baseline : Baseline} {records : List BaselineRecord} {year : Int}

/-! ## Attributes that occur somewhere -/

theorem mark_table_is_empty (marked : NameMap (NameMap Unit)) (table : RegionTable) :
    (markTable marked table).isEmpty = true ↔
      marked.isEmpty = true ∧ ∀ entry ∈ table.entries, entry.2.isEmpty = true := by
  unfold markTable
  induction table.entries generalizing marked with
  | nil => simp
  | cons entry rest induction =>
      obtain ⟨region, attributes⟩ := entry
      rw [List.foldl_cons, induction]
      by_cases bare : attributes.isEmpty = true <;> simp [bare, SortedMap.change]

theorem occurring_is_empty : baseline.occurring.isEmpty = true ↔ baseline.Bare := by
  have marks (tables : List RegionTable) (marked : NameMap (NameMap Unit)) :
      (tables.foldl markTable marked).isEmpty = true ↔
        marked.isEmpty = true ∧
          ∀ table ∈ tables, ∀ entry ∈ table.entries, entry.2.isEmpty = true := by
    induction tables generalizing marked with
    | nil => simp
    | cons table rest induction => simp [induction, mark_table_is_empty, and_assoc]
  simp only [occurring, marks, SortedMap.is_empty_empty, true_and, SortedMap.mem_values, forall_exists_index]
  constructor
  · intro vacant year region
    unfold held
    cases data : baseline.regions? year with
    | none => rfl
    | some table =>
        cases found : table.get? region with
        | none => simp [found]
        | some attributes =>
            simpa [found] using vacant table year data (region, attributes)
              ((SortedMap.mem_iff_lookup table.ascending region attributes).mpr found)
  · rintro bare table year data ⟨region, attributes⟩ member
    have found := (SortedMap.mem_iff_lookup table.ascending region attributes).mp member
    change table.get? region = some attributes at found
    change baseline.regions? year = some table at data
    simpa [held, data, found] using bare year region

theorem trend_table_is_empty (year : Int) : (baseline.trendTable year).isEmpty = true ↔ baseline.Bare := by
  rw [trendTable, lines, SortedMap.is_empty_map_values, SortedMap.is_empty_map_values,
    occurring_is_empty]

/-! ## What a step does to a year -/

theorem with_trend_regions (baseline : Baseline) (range : YearRange) (year : Int) :
    (baseline.withTrend range).regions? year =
      (baseline.regions? year).or
        (if year ∈ range.years then some (baseline.trendTable year) else none) := by
  have filled (years : List Int) (tables : SortedMap Int RegionTable) :
      (years.foldl (fun tables year =>
        if tables.contains year then tables else tables.insert year (baseline.trendTable year))
        tables).get? year =
      (tables.get? year).or (if year ∈ years then some (baseline.trendTable year) else none) := by
    induction years generalizing tables with
    | nil => simp
    | cons head rest induction =>
        rw [List.foldl_cons, induction]
        cases held : tables.get? head with
        | some table =>
            by_cases same : year = head
            · subst same
              simp [SortedMap.contains, held]
            · simp [SortedMap.contains, held, same]
        | none =>
            by_cases same : year = head
            · subst same
              simp [SortedMap.contains, held]
            · simp [SortedMap.contains, held, same, SortedMap.get_insert]
  exact filled range.years baseline.years

theorem with_normalized_shares_regions (baseline : Baseline) (range : YearRange) (year : Int) :
    ∃ change : Attributes → Attributes, (∀ attributes, (change attributes).isEmpty = attributes.isEmpty) ∧
      (baseline.withNormalizedShares range).regions? year =
        (baseline.regions? year).map (fun table => table.mapValues (fun _ => change)) := by
  have kept (attributes : Attributes) (group : List String) :
      (attributes.normalized group).isEmpty = attributes.isEmpty := by
    unfold Attributes.normalized
    dsimp only
    split <;> simp
  unfold regions? withNormalizedShares
  simp only [SortedMap.get_map_values]
  by_cases inside : range.contains year = true
  · refine ⟨fun attributes => (attributes.normalized Catalog.consumption).normalized Catalog.endOfLife,
      fun attributes => by rw [kept, kept], ?_⟩
    simp [inside]
  · refine ⟨id, fun _ => rfl, ?_⟩
    have same (table : RegionTable) : table.mapValues (fun _ => id) = table := by
      apply SortedMap.ext_get
      intro region
      simp [SortedMap.get_map_values]
    simp [inside, same]

theorem apply_regions_none (step : BaselineStep) :
    (step.apply baseline).regions? year = none ↔
      baseline.regions? year = none ∧ ¬step.Fills year := by
  cases step with
  | trend range =>
      by_cases inside : year ∈ range.years <;>
        simp [BaselineStep.apply, BaselineStep.Fills, with_trend_regions, inside]
  | shares range =>
      obtain ⟨change, -, regions⟩ := with_normalized_shares_regions baseline range year
      simp [BaselineStep.apply, BaselineStep.Fills, regions]

/-- The tables after a step: those before it, as empty as they were, and extended lines. -/
theorem apply_regions_some {step : BaselineStep} {table : RegionTable}
    (data : (step.apply baseline).regions? year = some table) :
    (∃ earlier, baseline.regions? year = some earlier ∧ table.isEmpty = earlier.isEmpty) ∨
      baseline.regions? year = none ∧ table = baseline.trendTable year := by
  cases step with
  | trend range =>
      rw [BaselineStep.apply, with_trend_regions] at data
      cases earlier : baseline.regions? year with
      | some held =>
          simp only [earlier, Option.some_or, Option.some.injEq] at data
          exact .inl ⟨held, rfl, by rw [data]⟩
      | none =>
          simp only [earlier, Option.none_or] at data
          split at data
          · exact .inr ⟨rfl, (Option.some.inj data).symm⟩
          · cases data
  | shares range =>
      obtain ⟨change, -, regions⟩ := with_normalized_shares_regions baseline range year
      rw [BaselineStep.apply, regions, Option.map_eq_some_iff] at data
      obtain ⟨held, earlier, rfl⟩ := data
      exact .inl ⟨held, earlier, SortedMap.is_empty_map_values held _⟩

/-- No step brings a first attribute, and none takes the last one away. -/
theorem apply_bare (step : BaselineStep) : (step.apply baseline).Bare ↔ baseline.Bare := by
  cases step with
  | trend range =>
      constructor
      · intro bare year region
        have after := bare year region
        cases data : baseline.regions? year with
        | none => simp [held, data]
        | some table => simpa [held, BaselineStep.apply, with_trend_regions, data] using after
      · intro bare year region
        have before := bare year region
        cases data : baseline.regions? year with
        | some table => simpa [held, BaselineStep.apply, with_trend_regions, data] using before
        | none =>
            have vacant :=
              (SortedMap.is_empty_iff_get _).mp ((trend_table_is_empty year).mpr bare) region
            by_cases inside : year ∈ range.years <;>
              simp [held, BaselineStep.apply, with_trend_regions, data, inside, vacant]
  | shares range =>
      have kept (year : Int) (region : String) :
          ((baseline.withNormalizedShares range).held year region).isEmpty =
            (baseline.held year region).isEmpty := by
        obtain ⟨change, kept, regions⟩ := with_normalized_shares_regions baseline range year
        unfold held
        rw [regions]
        cases baseline.regions? year with
        | none => rfl
        | some table =>
            simp only [Option.map_some, Option.bind_some, SortedMap.get_map_values]
            cases table.get? region <;> simp [kept]
      simp [Bare, BaselineStep.apply, kept]

/-! ## What a record does to a year -/

theorem insert_regions (baseline : Baseline) (record : BaselineRecord) (year : Int) :
    (baseline.insert record).regions? year =
      if year = record.year then
        some (((baseline.regions? record.year).getD ∅).change record.region ∅
          (fun attributes => attributes.union record.attributes))
      else baseline.regions? year :=
  SortedMap.get_change baseline.years record.year year ∅ _

theorem insert_held (baseline : Baseline) (record : BaselineRecord) (year : Int) (region : String) :
    (baseline.insert record).held year region =
      if year = record.year ∧ region = record.region then
        (baseline.held year region).union record.attributes
      else baseline.held year region := by
  unfold held
  rw [insert_regions]
  by_cases sameYear : year = record.year
  · subst sameYear
    by_cases sameRegion : region = record.region <;>
      cases baseline.regions? record.year <;> simp [SortedMap.get_change, sameRegion]
  · simp [sameYear]

theorem insert_bare (baseline : Baseline) (record : BaselineRecord) :
    (baseline.insert record).Bare ↔ baseline.Bare ∧ record.attributes.isEmpty = true := by
  have together (first second : Attributes) :
      (first.union second).isEmpty = true ↔ first.isEmpty = true ∧ second.isEmpty = true := by
    simp [SortedMap.is_empty_iff_get, SortedMap.get_union, forall_and, and_comm]
  constructor
  · intro bare
    have changed := bare record.year record.region
    rw [insert_held, if_pos ⟨rfl, rfl⟩, together] at changed
    refine ⟨fun year region => ?_, changed.2⟩
    have after := bare year region
    rw [insert_held] at after
    split at after
    · exact ((together _ _).mp after).1
    · exact after
  · rintro ⟨bare, vacant⟩ year region
    rw [insert_held]
    split
    · exact (together _ _).mpr ⟨bare year region, vacant⟩
    · exact bare year region

/-! ## Baselines of records and steps -/

theorem of_records_bare :
    (ofRecords records).Bare ↔ ∀ record ∈ records, record.attributes.isEmpty = true := by
  have added (baseline : Baseline) : (records.foldl insert baseline).Bare ↔
      baseline.Bare ∧ ∀ record ∈ records, record.attributes.isEmpty = true := by
    induction records generalizing baseline with
    | nil => simp
    | cons record rest induction => simp [induction, insert_bare, and_assoc]
  have none : empty.Bare := fun year region => rfl
  simp [ofRecords, added, none]

theorem of_records_regions (records : List BaselineRecord) (year : Int) :
    ((ofRecords records).regions? year = none ↔ ∀ record ∈ records, record.year ≠ year) ∧
      ∀ table, (ofRecords records).regions? year = some table → table.isEmpty = false := by
  have added (baseline : Baseline)
      (regions : ∀ table, baseline.regions? year = some table → table.isEmpty = false) :
      ((records.foldl insert baseline).regions? year = none ↔
        baseline.regions? year = none ∧ ∀ record ∈ records, record.year ≠ year) ∧
      ∀ table, (records.foldl insert baseline).regions? year = some table → table.isEmpty = false := by
    induction records generalizing baseline with
    | nil => simpa using regions
    | cons record rest induction =>
        have next : ∀ table, (baseline.insert record).regions? year = some table →
            table.isEmpty = false := by
          intro table data
          rw [insert_regions] at data
          split at data
          · rw [← Option.some.inj data]
            exact SortedMap.is_empty_insert _ _ _
          · exact regions table data
        obtain ⟨absent, present⟩ := induction (baseline.insert record) next
        refine ⟨?_, present⟩
        rw [List.foldl_cons, absent, insert_regions]
        by_cases same : year = record.year
        · simp [same]
        · simp [same, Ne.symm same]
  have start := added empty (fun table data => by cases data)
  exact ⟨start.1.trans (and_iff_right rfl), start.2⟩

theorem prepared_bare (steps : List BaselineStep) :
    (prepared records steps).Bare ↔ ∀ record ∈ records, record.attributes.isEmpty = true := by
  rw [← of_records_bare]
  unfold prepared
  generalize ofRecords records = baseline
  induction steps generalizing baseline with
  | nil => rfl
  | cons step rest induction => exact (induction _).trans (apply_bare step)

theorem prepared_regions_none (steps : List BaselineStep) :
    (prepared records steps).regions? year = none ↔
      (∀ record ∈ records, record.year ≠ year) ∧ ∀ step ∈ steps, ¬step.Fills year := by
  rw [← (of_records_regions records year).1]
  unfold prepared
  generalize ofRecords records = baseline
  induction steps generalizing baseline with
  | nil => simp
  | cons step rest induction =>
      rw [List.foldl_cons, induction, apply_regions_none]
      simp [and_assoc]

/-- A table is empty exactly if the year comes from an extension that had nothing to extend. -/
theorem prepared_table_is_empty {steps : List BaselineStep} {table : RegionTable}
    (data : (prepared records steps).regions? year = some table) :
    table.isEmpty = true ↔
      (∀ record ∈ records, record.year ≠ year) ∧ ∀ record ∈ records, record.attributes.isEmpty = true := by
  induction steps using List.reverseRecOn generalizing table with
  | nil =>
      obtain ⟨absent, present⟩ := of_records_regions records year
      change (ofRecords records).regions? year = some table at data
      rw [present table data, ← absent, data]
      simp
  | append_singleton steps step induction =>
      rw [prepared, List.foldl_append] at data
      rcases apply_regions_some data with ⟨earlier, before, same⟩ | ⟨absent, rfl⟩
      · rw [same, induction before]
      · have missing := (prepared_regions_none steps).mp absent
        rw [trend_table_is_empty, ← prepared_bare steps]
        exact (and_iff_right missing.1).symm

end Baseline

namespace FrameBuilder

variable {records : List BaselineRecord} {steps : List BaselineStep} {inputs : NameMap Float} {year : Int}

theorem historical_has_region {builder : FrameBuilder} {table : RegionTable} {frame : State}
    (data : builder.baseline.regions? year = some table)
    (built : builder.buildHistorical year = .ok frame) :
    (∃ name attributes, frame.region? name = some attributes) ↔ table.isEmpty = false := by
  simp only [buildHistorical, data, Except.ok.injEq] at built
  subst built
  rw [← Bool.not_eq_true, SortedMap.is_empty_iff_get]
  simp only [State.region?, SortedMap.get_map_values]
  constructor
  · rintro ⟨name, attributes, found⟩ vacant
    simp [vacant] at found
  · intro present
    obtain ⟨name, found⟩ := not_forall.mp present
    obtain ⟨attributes, found⟩ := Option.ne_none_iff_exists'.mp found
    exact ⟨name, attributes, by simp [found, LedgerEntry.attributes?]⟩

/-- Frames without levers, of a baseline from any records after any steps.  A year that has a record or that
an extension covers has a frame, any other one fails for want of data.  The frame has a region if the year
has a record or if some record has an attribute; without both it is silently empty. -/
theorem frames_of_prepared_baselines (records : List BaselineRecord) (steps : List BaselineStep)
    (inputs : NameMap Float) (year : Int) (source : Random.WordSource) :
    let builder : FrameBuilder := ⟨.prepared records steps, inputs, []⟩
    (builder.buildProjected year source =
      match builder.buildHistorical year with
      | .ok frame => .ok frame source
      | .error error => .error (.failure error) source) ∧
    (∀ error, builder.buildHistorical year = .error error ↔
      error = ⟨year, none, .missingBaseline year⟩ ∧
        (∀ record ∈ records, record.year ≠ year) ∧ ∀ step ∈ steps, ¬step.Fills year) ∧
    ∀ frame, builder.buildHistorical year = .ok frame →
      ((∃ name attributes, frame.region? name = some attributes) ↔
        (∃ record ∈ records, record.year = year) ∨
          ∃ record ∈ records, record.attributes.isEmpty = false) := by
  intro builder
  refine ⟨?_, fun error => ?_, fun frame built => ?_⟩
  · unfold buildProjected
    cases builder.buildHistorical year <;> rfl
  · rw [← Baseline.prepared_regions_none]
    change _ ↔ _ ∧ builder.baseline.regions? year = none
    cases data : builder.baseline.regions? year <;> simp [buildHistorical, data, eq_comm]
  · cases data : builder.baseline.regions? year with
    | none => simp [buildHistorical, data] at built
    | some table =>
        rw [historical_has_region data built, ← Bool.not_eq_true, Baseline.prepared_table_is_empty data]
        simp only [not_and_or, not_forall, not_not, Bool.not_eq_true, exists_prop]

/-- Extending a baseline without records makes a missing year an empty one. -/
theorem extended_nothing_is_empty :
    let builder : FrameBuilder := ⟨.prepared [] [.trend ⟨2021, 2021⟩], ∅, []⟩
    ∃ frame, builder.buildHistorical 2021 = .ok frame ∧
      builder.buildProjected 2021 (.cycle [0]) = .ok frame (.cycle [0]) ∧
      ¬∃ name attributes, frame.region? name = some attributes := by
  refine ⟨_, rfl, rfl, ?_⟩
  rintro ⟨name, attributes, found⟩
  cases found

end FrameBuilder

end PolicyLevers
