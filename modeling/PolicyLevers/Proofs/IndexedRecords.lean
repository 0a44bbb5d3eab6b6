import PolicyLevers.Proofs.TrendLines

/-!
# Records by year and region

A list of records makes a baseline with a table for every year and a row for every region that the list
mentions, also when a record has no attributes.  A value that several records give is the one of the last of
them.  So the order of the list does not matter as long as no two of its records give the same value.
-/

namespace PolicyLevers

set_option autoImplicit false

theorem eq_of_present {α : Type} {first second : Option α}
    (present : (∃ value, first = some value) ↔ ∃ value, second = some value)
    (same : ∀ value other, first = some value → second = some other → value = other) :
    first = second := by
  cases first with
  | none =>
      cases second with
      | none => rfl
      | some other => exact absurd (present.mpr ⟨other, rfl⟩) (by simp)
  | some value =>
      obtain ⟨other, rfl⟩ := present.mp ⟨value, rfl⟩
      rw [same value other rfl rfl]

def BaselineRecord.Gives (record : BaselineRecord) (year : Int) (region name : String) (value : Float) :
    Prop :=
  record.year = year ∧ record.region = region ∧ record.attributes.get? name = some value

def BaselineRecord.given? (record : BaselineRecord) (year : Int) (region name : String) : Option Float :=
  if record.year = year ∧ record.region = region then record.attributes.get? name else none

theorem BaselineRecord.given_iff {record : BaselineRecord} {year : Int} {region name : String}
    {value : Float} : record.given? year region name = some value ↔ record.Gives year region name value := by
  unfold given? Gives
  rw [Option.ite_none_right_eq_some, and_assoc]

namespace Baseline

def row? (baseline : Baseline) (year : Int) (region : String) : Option Attributes :=
  (baseline.regions? year).bind (fun table => table.get? region)

theorem value_of_row (baseline : Baseline) (year : Int) (region name : String) :
    baseline.value? year region name =
      (baseline.row? year region).bind (fun row => row.get? name) := by
  unfold value? row? cell?
  rw [Option.bind_assoc]

/-- A baseline is known by its years, its regions and its values. -/
theorem ext_values {baseline other : Baseline}
    (years : ∀ year, (∃ table, baseline.regions? year = some table) ↔
      ∃ table, other.regions? year = some table)
    (regions : ∀ year region, (∃ row, baseline.row? year region = some row) ↔
      ∃ row, other.row? year region = some row)
    (values : ∀ year region name, baseline.value? year region name = other.value? year region name) :
    baseline = other := by
  have rows : ∀ year region, baseline.row? year region = other.row? year region := by
    intro year region
    apply eq_of_present (regions year region)
    intro row otherRow found otherFound
    apply SortedMap.ext_get
    intro name
    have same := values year region name
    rwa [value_of_row, value_of_row, found, otherFound] at same
  have tables : baseline.years = other.years := by
    apply SortedMap.ext_get
    intro year
    apply eq_of_present (years year)
    intro table otherTable found otherFound
    apply SortedMap.ext_get
    intro region
    have same := rows year region
    rw [row?, row?, found, otherFound] at same
    exact same
  cases baseline
  cases other
  exact congrArg Baseline.mk tables

/-! ## One record -/

theorem insert_row (baseline : Baseline) (record : BaselineRecord) (year : Int) (region : String) :
    (baseline.insert record).row? year region =
      if year = record.year ∧ region = record.region then
        some (((baseline.row? year region).getD ∅).union record.attributes)
      else baseline.row? year region := by
  unfold row?
  rw [insert_regions]
  by_cases sameYear : year = record.year
  · subst sameYear
    by_cases sameRegion : region = record.region <;>
      cases baseline.regions? record.year <;> simp [SortedMap.get_change, sameRegion]
  · simp [sameYear]

/-! ## All records -/

variable {records : List BaselineRecord} {year : Int} {region name : String}

theorem of_records_region (records : List BaselineRecord) (year : Int) (region : String) :
    (∃ row, (ofRecords records).row? year region = some row) ↔
      ∃ record ∈ records, record.year = year ∧ record.region = region := by
  have added (baseline : Baseline) : (∃ row, (records.foldl insert baseline).row? year region = some row) ↔
      (∃ row, baseline.row? year region = some row) ∨
        ∃ record ∈ records, record.year = year ∧ record.region = region := by
    induction records generalizing baseline with
    | nil => simp
    | cons record rest induction =>
        rw [List.foldl_cons, induction, insert_row, List.exists_mem_cons_iff, ← or_assoc]
        apply or_congr_left
        by_cases here : record.year = year ∧ record.region = region
        · simp [here]
        · rw [if_neg (fun same => here ⟨same.1.symm, same.2.symm⟩)]
          simp [here]
  have none : ¬∃ row, empty.row? year region = some row := by
    rintro ⟨row, found⟩
    cases found
  rw [ofRecords, added, or_iff_right none]

/-- The last record that has a value decides it. -/
theorem of_records_value (records : List BaselineRecord) (year : Int) (region name : String) :
    (ofRecords records).value? year region name =
      records.reverse.findSome? (fun record => record.given? year region name) := by
  have added (baseline : Baseline) : (records.foldl insert baseline).value? year region name =
      (records.reverse.findSome? (fun record => record.given? year region name)).or
        (baseline.value? year region name) := by
    induction records generalizing baseline with
    | nil => rfl
    | cons record rest induction =>
        rw [List.foldl_cons, induction, insert_value, List.reverse_cons, List.findSome?_append,
          Option.or_assoc]
        congr 1
        unfold BaselineRecord.given?
        by_cases here : record.year = year ∧ record.region = region
        · simp [here]
        · rw [if_neg (fun same => here ⟨same.1.symm, same.2.symm⟩)]
          simp [here]
  rw [ofRecords, added]
  exact Option.or_none

theorem of_records_value_iff {value : Float} :
    (ofRecords records).value? year region name = some value ↔
      ∃ earlier record later, records = earlier ++ record :: later ∧
        record.Gives year region name value ∧
        ∀ other ∈ later, ∀ held, ¬other.Gives year region name held := by
  rw [of_records_value, List.findSome?_eq_some_iff]
  simp only [BaselineRecord.given_iff, Option.eq_none_iff_forall_ne_some, ne_eq]
  constructor
  · rintro ⟨later, record, earlier, reversed, gives, last⟩
    have split := congrArg List.reverse reversed
    rw [List.reverse_reverse, List.reverse_append, List.reverse_cons, List.append_assoc] at split
    exact ⟨earlier.reverse, record, later.reverse, split, gives,
      fun other member => last other (List.mem_reverse.mp member)⟩
  · rintro ⟨earlier, record, later, rfl, gives, last⟩
    refine ⟨later.reverse, record, earlier.reverse, by simp, gives, ?_⟩
    exact fun other member => last other (List.mem_reverse.mp member)

/-- No two records of a list have a value for the same attribute of a region in a year. -/
def Compatible (records : List BaselineRecord) : Prop :=
  ∀ first ∈ records, ∀ second ∈ records, first ≠ second → first.year = second.year →
    first.region = second.region →
    ∀ name, first.attributes.get? name = none ∨ second.attributes.get? name = none

/-- A value that only one record has is found wherever that record stands. -/
theorem compatible_value_iff (compatible : Compatible records) {value : Float} :
    (ofRecords records).value? year region name = some value ↔
      ∃ record ∈ records, record.Gives year region name value := by
  constructor
  · intro found
    obtain ⟨earlier, record, later, rfl, gives, _⟩ := of_records_value_iff.mp found
    exact ⟨record, by simp, gives⟩
  · rintro ⟨record, member, gives⟩
    have present : ∃ held, (ofRecords records).value? year region name = some held := by
      rw [of_records_value]
      apply Option.isSome_iff_exists.mp
      rw [List.findSome?_isSome_iff]
      exact ⟨record, List.mem_reverse.mpr member,
        Option.isSome_iff_exists.mpr ⟨value, BaselineRecord.given_iff.mpr gives⟩⟩
    obtain ⟨held, found⟩ := present
    obtain ⟨earlier, last, later, split, lastGives, _⟩ := of_records_value_iff.mp found
    have lastMember : last ∈ records := by simp [split]
    by_cases same : record = last
    · subst same
      rw [found, ← gives.2.2, lastGives.2.2]
    · obtain ⟨inYear, inRegion, here⟩ := gives
      obtain ⟨lastYear, lastRegion, there⟩ := lastGives
      rcases compatible record member last lastMember same (inYear.trans lastYear.symm)
        (inRegion.trans lastRegion.symm) name with missing | missing
      · rw [here] at missing
        cases missing
      · rw [there] at missing
        cases missing

/-- The baseline of a list of records, with repeated years and regions and with records without attributes.  It
has a year, or a region in a year, exactly if some record is for it.  A value is that of the last record for the
year and the region which has the attribute, and there is none if no record has it.  So two lists of the same
records in any order give the same baseline, provided that no two records for a year and a region share an
attribute. -/
theorem last_records_decide :
    (∀ (records : List BaselineRecord) (year : Int),
      (∃ table, (ofRecords records).regions? year = some table) ↔
        ∃ record ∈ records, record.year = year) ∧
    (∀ (records : List BaselineRecord) (year : Int) (region : String),
      (∃ table row, (ofRecords records).regions? year = some table ∧ table.get? region = some row) ↔
        ∃ record ∈ records, record.year = year ∧ record.region = region) ∧
    (∀ (records : List BaselineRecord) (year : Int) (region name : String) (value : Float),
      (ofRecords records).value? year region name = some value ↔
        ∃ earlier record later, records = earlier ++ record :: later ∧
          record.Gives year region name value ∧
          ∀ other ∈ later, ∀ held, ¬other.Gives year region name held) ∧
    (∀ (records : List BaselineRecord) (year : Int) (region name : String),
      (ofRecords records).value? year region name = none ↔
        ∀ record ∈ records, ∀ value, ¬record.Gives year region name value) ∧
    ∀ records others : List BaselineRecord, records.Perm others →
      (∀ first ∈ records, ∀ second ∈ records, first ≠ second → first.year = second.year →
        first.region = second.region →
        ∀ name, first.attributes.get? name = none ∨ second.attributes.get? name = none) →
      ofRecords records = ofRecords others := by
  have years (records : List BaselineRecord) (year : Int) :
      (∃ table, (ofRecords records).regions? year = some table) ↔
        ∃ record ∈ records, record.year = year := by
    have absent := not_congr (of_records_regions records year).1
    rw [← ne_eq, Option.ne_none_iff_exists'] at absent
    simpa using absent
  refine ⟨years, ?_, fun records year region name value => of_records_value_iff, ?_, ?_⟩
  · intro records year region
    rw [← of_records_region]
    simp only [row?, Option.bind_eq_some_iff]
    exact exists_comm
  · intro records year region name
    rw [of_records_value, List.findSome?_eq_none_iff]
    simp only [List.mem_reverse, Option.eq_none_iff_forall_ne_some, ne_eq, BaselineRecord.given_iff]
  · intro records others permuted compatible
    have alsoCompatible : Compatible others := fun first firstMember second secondMember =>
      compatible first (permuted.mem_iff.mpr firstMember) second (permuted.mem_iff.mpr secondMember)
    apply ext_values
    · intro year
      simp only [years, permuted.mem_iff]
    · intro year region
      simp only [of_records_region, permuted.mem_iff]
    · intro year region name
      apply Option.ext
      intro value
      rw [compatible_value_iff compatible, compatible_value_iff alsoCompatible]
      simp only [permuted.mem_iff]

/-- Two regions in turn, one of them in several records, and a record without attributes. -/
def scatteredRecords : List BaselineRecord :=
  [⟨2020, "china", .ofList [("reuse", 1.0)]⟩, ⟨2021, "nafta", ∅⟩,
    ⟨2020, "nafta", .ofList [("reuse", 2.0)]⟩, ⟨2020, "china", .ofList [("export", 4.0)]⟩]

def correctedRecords : List BaselineRecord :=
  scatteredRecords ++ [⟨2020, "china", .ofList [("reuse", 3.0)]⟩]

theorem corrected_value_is_the_last :
    (∃ table, (ofRecords correctedRecords).regions? 2021 = some table) ∧
    (∃ table row, (ofRecords correctedRecords).regions? 2021 = some table ∧
      table.get? "nafta" = some row) ∧
    (ofRecords correctedRecords).value? 2020 "china" "reuse" = some 3.0 ∧
    (ofRecords correctedRecords).value? 2021 "nafta" "reuse" = none ∧
    ofRecords scatteredRecords = ofRecords scatteredRecords.reverse := by
  obtain ⟨years, regions, values, missing, orders⟩ := last_records_decide
  have bare : (⟨2021, "nafta", ∅⟩ : BaselineRecord) ∈ correctedRecords := by decide +kernel
  refine ⟨(years _ _).mpr ⟨_, bare, rfl⟩, (regions _ _ _).mpr ⟨_, bare, rfl, rfl⟩,
    (values _ _ _ _ _).mpr ⟨scatteredRecords, _, [], rfl, ⟨rfl, rfl, by decide +kernel⟩, by simp⟩,
    (missing _ _ _ _).mpr ?_, orders _ _ (List.reverse_perm _).symm ?_⟩
  · rintro record member value ⟨inYear, inRegion, found⟩
    have attributes : ∀ record ∈ correctedRecords, record.year = 2021 → record.attributes = ∅ := by
      decide +kernel
    rw [attributes record member inYear] at found
    cases found
  · intro first firstMember second secondMember different sameYear sameRegion name
    have apart : ∀ first ∈ scatteredRecords, ∀ second ∈ scatteredRecords, first ≠ second →
        first.year = second.year → first.region = second.region →
        ∀ name ∈ first.attributes.keys, second.attributes.get? name = none := by
      decide +kernel
    cases found : first.attributes.get? name with
    | none => exact .inl rfl
    | some value =>
        exact .inr (apart first firstMember second secondMember different sameYear sameRegion name
          ((SortedMap.mem_keys _ name).mpr ⟨value, found⟩))

end Baseline

end PolicyLevers
