import Mathlib.Data.List.Basic
import PolicyLevers.Proofs.BaselineYears
import PolicyLevers.Proofs.FittedLines

/-!
# The years that an extension adds

An extension turns the tables of the years into a series for every attribute of a region and turns the lines
of the series back into tables.  Both ways are told by cells: a cell of a year that is added belongs to the line
of its own series, and nothing but the observations of the series decides the line.
-/

namespace PolicyLevers

set_option autoImplicit false

def cell? {ν : Type} (table : NameMap (NameMap ν)) (region name : String) : Option ν :=
  (table.get? region).bind (fun row => row.get? name)

section Cells

variable {ν μ : Type}

theorem cell_map_values (table : NameMap (NameMap ν)) (update : String → String → ν → μ)
    (region name : String) :
    cell? (table.mapValues (fun region row => row.mapValues (update region))) region name =
      (cell? table region name).map (update region name) := by
  unfold cell?
  rw [SortedMap.get_map_values]
  cases table.get? region with
  | none => rfl
  | some row => exact SortedMap.get_map_values row (update region) name

def NoBareRegion (table : NameMap (NameMap ν)) : Prop :=
  ∀ region row, table.get? region = some row → row.isEmpty = false

theorem no_bare_region_map_values {table : NameMap (NameMap ν)} (filled : NoBareRegion table)
    (update : String → String → ν → μ) :
    NoBareRegion (table.mapValues (fun region row => row.mapValues (update region))) := by
  intro region row found
  rw [SortedMap.get_map_values, Option.map_eq_some_iff] at found
  obtain ⟨before, present, rfl⟩ := found
  rw [SortedMap.is_empty_map_values, filled region before present]

end Cells

namespace Baseline

def value? (baseline : Baseline) (year : Int) (region name : String) : Option Float :=
  (baseline.regions? year).bind (fun table => cell? table region name)

theorem held_value (baseline : Baseline) (year : Int) (region name : String) :
    baseline.value? year region name = (baseline.held year region).get? name := by
  unfold value? cell? held
  cases baseline.regions? year with
  | none => rfl
  | some table => cases found : table.get? region <;> simp [found]

theorem insert_value (baseline : Baseline) (record : BaselineRecord) (year : Int) (region name : String) :
    (baseline.insert record).value? year region name =
      if year = record.year ∧ region = record.region then
        (record.attributes.get? name).or (baseline.value? year region name)
      else baseline.value? year region name := by
  rw [held_value, held_value, insert_held]
  split
  · exact SortedMap.get_union _ _ name
  · rfl

/-! ## Marked attributes -/

def markRow (names : NameMap Unit) (attributes : Attributes) : NameMap Unit :=
  attributes.entries.foldl (fun names entry => names.insert entry.1 ()) names

theorem get_mark_row (names : NameMap Unit) (attributes : Attributes) (name : String) :
    (markRow names attributes).get? name =
      ((attributes.get? name).map (fun _ => ())).or (names.get? name) := by
  unfold markRow
  have marked := SortedMap.get_change_all attributes names () (fun _ _ _ => ()) name
  exact marked

def markRegion (marked : NameMap (NameMap Unit)) (entry : String × Attributes) : NameMap (NameMap Unit) :=
  if entry.2.isEmpty then marked else marked.change entry.1 ∅ (fun names => markRow names entry.2)

theorem mark_table_eq (marked : NameMap (NameMap Unit)) (table : RegionTable) :
    markTable marked table = table.entries.foldl markRegion marked := by
  rfl

theorem marked_region_iff (marked : NameMap (NameMap Unit)) (entry : String × Attributes)
    (region name : String) :
    cell? (markRegion marked entry) region name = some () ↔
      cell? marked region name = some () ∨
        region = entry.1 ∧ ∃ value, entry.2.get? name = some value := by
  unfold cell? markRegion
  by_cases bare : entry.2.isEmpty = true
  · have missing := (SortedMap.is_empty_iff_get entry.2).mp bare name
    simp [bare, missing]
  · rw [if_neg bare, SortedMap.get_change]
    by_cases same : region = entry.1
    · subst same
      rw [if_pos rfl, Option.bind_some, get_mark_row]
      cases entry.2.get? name <;> cases marked.get? entry.1 <;> simp
    · simp [same]

theorem marked_iff (marked : NameMap (NameMap Unit)) (table : RegionTable) (region name : String) :
    cell? (markTable marked table) region name = some () ↔
      cell? marked region name = some () ∨ ∃ value, cell? table region name = some value := by
  have listed (entries : List (String × Attributes)) :
      cell? (entries.foldl markRegion marked) region name = some () ↔
      cell? marked region name = some () ∨
        ∃ row, (region, row) ∈ entries ∧ ∃ value, row.get? name = some value := by
    induction entries generalizing marked with
    | nil => simp
    | cons entry rest induction =>
        obtain ⟨other, row⟩ := entry
        rw [List.foldl_cons, induction, marked_region_iff, or_assoc]
        refine or_congr_right ⟨?_, ?_⟩
        · rintro (⟨rfl, value, found⟩ | ⟨later, member, value, found⟩)
          · exact ⟨row, List.mem_cons_self, value, found⟩
          · exact ⟨later, List.mem_cons_of_mem _ member, value, found⟩
        · rintro ⟨held, member, value, found⟩
          rcases List.mem_cons.mp member with same | later
          · cases same
            exact .inl ⟨rfl, value, found⟩
          · exact .inr ⟨held, later, value, found⟩
  rw [mark_table_eq, listed]
  refine or_congr_right ?_
  simp only [cell?, Option.bind_eq_some_iff, SortedMap.mem_iff_lookup table.ascending]
  exact ⟨fun ⟨row, held, value, found⟩ => ⟨value, row, held, found⟩,
    fun ⟨value, row, held, found⟩ => ⟨row, held, value, found⟩⟩

theorem mark_row_filled (names : NameMap Unit) {attributes : Attributes}
    (filled : attributes.isEmpty = false) : (markRow names attributes).isEmpty = false := by
  rw [← Bool.not_eq_true, SortedMap.is_empty_iff_get] at filled ⊢
  obtain ⟨name, found⟩ := not_forall.mp filled
  obtain ⟨value, found⟩ := Option.ne_none_iff_exists'.mp found
  intro missing
  have marked := missing name
  rw [get_mark_row, found] at marked
  cases marked

theorem mark_table_filled {marked : NameMap (NameMap Unit)} (filled : NoBareRegion marked)
    (table : RegionTable) : NoBareRegion (markTable marked table) := by
  rw [mark_table_eq]
  induction table.entries generalizing marked with
  | nil => exact filled
  | cons entry rest induction =>
      apply induction
      intro region names found
      unfold markRegion at found
      split at found
      · exact filled region names found
      next some =>
          rw [SortedMap.get_change] at found
          split at found
          · rw [← Option.some.inj found]
            exact mark_row_filled _ (Bool.not_eq_true _ ▸ some)
          · exact filled region names found

variable {baseline : Baseline} {region name : String}

theorem occurring_iff : cell? baseline.occurring region name = some () ↔
    ∃ year value, baseline.value? year region name = some value := by
  have listed (tables : List RegionTable) (marked : NameMap (NameMap Unit)) :
      cell? (tables.foldl markTable marked) region name = some () ↔
        cell? marked region name = some () ∨
          ∃ table ∈ tables, ∃ value, cell? table region name = some value := by
    induction tables generalizing marked with
    | nil => simp
    | cons table rest induction => simp [induction, marked_iff, or_assoc]
  unfold occurring value?
  rw [listed]
  simp only [SortedMap.mem_values, Option.bind_eq_some_iff]
  constructor
  · rintro (none | ⟨table, ⟨year, data⟩, value, found⟩)
    · cases none
    · exact ⟨year, value, table, data, found⟩
  · rintro ⟨year, value, table, data, found⟩
    exact .inr ⟨table, ⟨year, data⟩, value, found⟩

theorem occurring_filled : NoBareRegion baseline.occurring := by
  have listed (tables : List RegionTable) {marked : NameMap (NameMap Unit)}
      (filled : NoBareRegion marked) : NoBareRegion (tables.foldl markTable marked) := by
    induction tables generalizing marked with
    | nil => exact filled
    | cons table rest induction => exact induction (mark_table_filled filled table)
  exact listed baseline.years.values (fun region row found => by cases found)

/-! ## Observations -/

def observed? (baseline : Baseline) (region name : String) (year : Int) : Option Observation :=
  (baseline.value? year region name).map (fun value => ⟨Decimal.ofInt year, value⟩)

/-- The observations of a series are those of the years that have it, in ascending order. -/
theorem observations_ascend (baseline : Baseline) (region name : String) :
    ∃ years : List Int, years.Pairwise (· < ·) ∧
      (∀ year, year ∈ years ↔ ∃ value, baseline.value? year region name = some value) ∧
      baseline.observations region name = years.filterMap (baseline.observed? region name) := by
  have ascending : (baseline.years.entries.map Prod.fst).Pairwise (· < ·) := by
    rw [List.pairwise_map]
    exact baseline.years.ascending.imp (fun less => Int.compare_eq_lt.mp less)
  have kept (year : Int) : baseline.observed? region name year =
      ((baseline.years.get? year).bind (fun table => cell? table region name)).map
        (fun value => ⟨Decimal.ofInt year, value⟩) := rfl
  refine ⟨(baseline.years.entries.map Prod.fst).filter
    (fun year => (baseline.value? year region name).isSome), ascending.filter _, fun year => ?_, ?_⟩
  · rw [List.mem_filter, Option.isSome_iff_exists, and_iff_right_iff_imp]
    rintro ⟨value, found⟩
    obtain ⟨table, data, _⟩ := Option.bind_eq_some_iff.mp found
    exact List.mem_map_of_mem ((SortedMap.mem_iff_lookup baseline.years.ascending year table).mpr data)
  · rw [List.filterMap_filter, List.filterMap_map]
    unfold observations
    apply List.filterMap_congr
    rintro ⟨year, table⟩ member
    have data := (SortedMap.mem_iff_lookup baseline.years.ascending year table).mp member
    change baseline.years.get? year = some table at data
    simp only [Function.comp_apply, kept, value?, regions?, data, Option.bind_some]
    change (cell? table region name).map _ = _
    cases cell? table region name <;> rfl

/-- A series is decided by its own values alone. -/
theorem observations_congr {other : Baseline} (same : ∀ year,
    baseline.value? year region name = other.value? year region name) :
    baseline.observations region name = other.observations region name := by
  obtain ⟨years, ascending, member, observed⟩ := observations_ascend baseline region name
  obtain ⟨others, othersAscending, otherMember, otherObserved⟩ := observations_ascend other region name
  have equal : years = others := by
    have permuted := (List.perm_ext_iff_of_nodup (ascending.imp Int.ne_of_lt)
      (othersAscending.imp Int.ne_of_lt)).mpr (fun year => by rw [member, otherMember, same])
    exact List.Perm.eq_of_pairwise (fun first second _ _ less greater => by omega) ascending
      othersAscending permuted
  have pointwise : baseline.observed? region name = other.observed? region name := by
    funext year
    rw [observed?, observed?, same]
  rw [observed, otherObserved, equal, pointwise]

/-! ## Added years -/

theorem trend_cell (baseline : Baseline) (year : Int) (region name : String) :
    cell? (baseline.trendTable year) region name = (cell? baseline.occurring region name).map
      (fun _ => (Line.fit (baseline.observations region name)).at (Decimal.ofInt year)) := by
  have fitted := cell_map_values baseline.occurring
    (fun region name _ => Line.fit (baseline.observations region name)) region name
  have extended := cell_map_values baseline.lines
    (fun _ _ (line : Line) => line.at (Decimal.ofInt year)) region name
  refine extended.trans ((congrArg _ fitted).trans ?_)
  exact Option.map_map _ _ _

theorem trend_cell_iff {year : Int} {value : Float} :
    cell? (baseline.trendTable year) region name = some value ↔
      (∃ other held, baseline.value? other region name = some held) ∧
        value = (Line.fit (baseline.observations region name)).at (Decimal.ofInt year) := by
  rw [← occurring_iff, trend_cell]
  cases cell? baseline.occurring region name <;> simp [eq_comm]

theorem trend_filled (baseline : Baseline) (year : Int) : NoBareRegion (baseline.trendTable year) :=
  no_bare_region_map_values
    (no_bare_region_map_values occurring_filled
      (fun region name _ => Line.fit (baseline.observations region name)))
    (fun _ _ line => line.at (Decimal.ofInt year))

theorem trend_cell_congr {other : Baseline} (same : ∀ year,
    baseline.value? year region name = other.value? year region name) (year : Int) :
    cell? (baseline.trendTable year) region name = cell? (other.trendTable year) region name := by
  apply Option.ext
  intro value
  rw [trend_cell_iff, trend_cell_iff, observations_congr same]
  simp only [same]

theorem with_trend_added {range : YearRange} {year : Int} (missing : baseline.regions? year = none)
    (inside : year ∈ range.years) :
    (baseline.withTrend range).regions? year = some (baseline.trendTable year) := by
  rw [with_trend_regions, missing, if_pos inside, Option.none_or]

theorem added_table {range : YearRange} {year : Int} {table : RegionTable}
    (missing : baseline.regions? year = none)
    (extended : (baseline.withTrend range).regions? year = some table) :
    table = baseline.trendTable year := by
  by_cases inside : year ∈ range.years
  · rw [with_trend_added missing inside, Option.some.injEq] at extended
    exact extended.symm
  · rw [with_trend_regions, missing, if_neg inside] at extended
    cases extended

theorem with_trend_idempotent (baseline : Baseline) (range : YearRange) :
    (baseline.withTrend range).withTrend range = baseline.withTrend range := by
  have years : ((baseline.withTrend range).withTrend range).years = (baseline.withTrend range).years := by
    apply SortedMap.ext_get
    intro year
    change ((baseline.withTrend range).withTrend range).regions? year =
      (baseline.withTrend range).regions? year
    rw [with_trend_regions, with_trend_regions]
    by_cases inside : year ∈ range.years
    · cases baseline.regions? year <;> simp [inside]
    · simp [inside]
  calc (baseline.withTrend range).withTrend range
      = ⟨((baseline.withTrend range).withTrend range).years⟩ := rfl
    _ = baseline.withTrend range := by rw [years]

/-- An extension keeps the tables of the years that have data and gives one to every other year of its range.
Such a table has the attributes that some year of the baseline has in the region, each on the line of least squares
through its own observations, which are those of the years that have it in ascending order; a single observation is
kept as it is.  So baselines that agree in one series extend it alike, over whatever range, and extending a second
time changes nothing. -/
theorem trends_fill_missing_years :
    (∀ (baseline : Baseline) (range : YearRange) (year : Int) (table : RegionTable),
      baseline.regions? year = some table → (baseline.withTrend range).regions? year = some table) ∧
    (∀ (baseline : Baseline) (range : YearRange) (year : Int),
      (∃ table, (baseline.withTrend range).regions? year = some table) ↔
        (∃ table, baseline.regions? year = some table) ∨ range.first ≤ year ∧ year ≤ range.last) ∧
    (∀ (baseline : Baseline) (range : YearRange) (year : Int) (table : RegionTable),
      baseline.regions? year = none → (baseline.withTrend range).regions? year = some table →
      (∀ region row, table.get? region = some row → row.isEmpty = false) ∧
      ∀ region name value, cell? table region name = some value ↔
        (∃ other held, baseline.value? other region name = some held) ∧
          ∃ line meanYear meanValue,
            Line.Fits line (baseline.observations region name) meanYear meanValue ∧
            value = line.intercept + line.slope * Decimal.ofInt year) ∧
    (∀ (baseline : Baseline) (range : YearRange) (year : Int) (table : RegionTable),
      baseline.regions? year = none → (baseline.withTrend range).regions? year = some table →
      ∀ region name value other held, cell? table region name = some value →
        baseline.observations region name = [⟨Decimal.ofInt other, held⟩] →
        (Decimal.ofInt other).isFinite = true → (Decimal.ofInt year).isFinite = true →
        Decimal.AlikeButZeros value held) ∧
    (∀ (baseline : Baseline) (region name : String), ∃ years : List Int, years.Pairwise (· < ·) ∧
      (∀ year, year ∈ years ↔ ∃ value, baseline.value? year region name = some value) ∧
      baseline.observations region name = years.filterMap (fun year =>
        (baseline.value? year region name).map (fun value => ⟨Decimal.ofInt year, value⟩))) ∧
    (∀ (baseline other : Baseline) (range otherRange : YearRange) (region name : String) (year : Int),
      (∀ year, baseline.value? year region name = other.value? year region name) →
      baseline.regions? year = none → other.regions? year = none →
      range.contains year = true → otherRange.contains year = true →
      (baseline.withTrend range).value? year region name =
        (other.withTrend otherRange).value? year region name) ∧
    ∀ (baseline : Baseline) (range : YearRange),
      (baseline.withTrend range).withTrend range = baseline.withTrend range := by
  refine ⟨?_, ?_, ?_, ?_, observations_ascend, ?_, with_trend_idempotent⟩
  · intro baseline range year table data
    rw [with_trend_regions, data, Option.some_or]
  · intro baseline range year
    rw [with_trend_regions, ← YearRange.mem_years]
    by_cases inside : year ∈ range.years <;> cases baseline.regions? year <;> simp [inside]
  · intro baseline range year table missing extended
    obtain rfl := added_table missing extended
    refine ⟨trend_filled baseline year, fun region name value => ?_⟩
    rw [trend_cell_iff, at_fitted_iff]
  · intro baseline range year table missing extended region name value other held found alone dated counted
    obtain rfl := added_table missing extended
    obtain ⟨_, reached⟩ := trend_cell_iff.mp found
    rw [alone, at_fitted_iff] at reached
    obtain ⟨line, _, _, fits, rfl⟩ := reached
    exact (fits.single dated).2 _ counted
  · intro baseline other range otherRange region name year same missing otherMissing inside otherInside
    have mem {range : YearRange} (inside : range.contains year = true) : year ∈ range.years :=
      YearRange.mem_years.mpr (by simpa [YearRange.contains] using inside)
    unfold value?
    rw [with_trend_added missing (mem inside), with_trend_added otherMissing (mem otherInside)]
    exact trend_cell_congr same year

/-- Two years of a region with a year between them, and a region without attributes. -/
def patchyBaseline : Baseline :=
  .ofRecords [⟨2018, "china", .ofList [("reuse", 10.0)]⟩,
    ⟨2020, "china", .ofList [("reuse", 14.0), ("export", 3.0)]⟩, ⟨2020, "nafta", ∅⟩]

def fullerBaseline : Baseline := patchyBaseline.insert ⟨2018, "china", .ofList [("export", -1.5)]⟩

theorem patchy_baseline_is_extended :
    (∃ table, patchyBaseline.regions? 2018 = some table ∧
      (patchyBaseline.withTrend ⟨2018, 2021⟩).regions? 2018 = some table) ∧
    patchyBaseline.regions? 2021 = none ∧
    (∃ table, (patchyBaseline.withTrend ⟨2018, 2021⟩).regions? 2021 = some table ∧
      table.get? "nafta" = none ∧ cell? table "china" "reuse" = some 16.0 ∧
      ∃ value, cell? table "china" "export" = some value ∧ Decimal.AlikeButZeros value 3.0) ∧
    (patchyBaseline.withTrend ⟨2018, 2021⟩).value? 2021 "china" "reuse" =
      (fullerBaseline.withTrend ⟨2021, 2021⟩).value? 2021 "china" "reuse" := by
  obtain ⟨kept, years, added, level, _, alike, _⟩ := trends_fill_missing_years
  have present : (patchyBaseline.regions? 2018).isSome = true := by decide +kernel
  have missing : patchyBaseline.regions? 2021 = none := by decide +kernel
  obtain ⟨first, data⟩ := Option.isSome_iff_exists.mp present
  obtain ⟨table, extended⟩ := (years patchyBaseline ⟨2018, 2021⟩ 2021).mpr (.inr (by decide))
  obtain ⟨_, cells⟩ := added patchyBaseline ⟨2018, 2021⟩ 2021 table missing extended
  have observed : patchyBaseline.value? 2018 "china" "reuse" = some 10.0 := by decide +kernel
  have exported : patchyBaseline.value? 2020 "china" "export" = some 3.0 := by decide +kernel
  have series : patchyBaseline.observations "china" "reuse" = [⟨2018.0, 10.0⟩, ⟨2020.0, 14.0⟩] := by
    rfl
  have alone : patchyBaseline.observations "china" "export" = [⟨Decimal.ofInt 2020, 3.0⟩] := rfl
  have fits : Line.Fits ⟨-4026.0, 2.0⟩ (patchyBaseline.observations "china" "reuse") 2019.0 12.0 := by
    rw [series]
    exact ⟨by decide +kernel, by decide +kernel, by decide +kernel, by decide +kernel, by decide +kernel⟩
  obtain ⟨meanYear, meanValue, single⟩ := fit_fits (patchyBaseline.observations "china" "export")
  have held := (cells "china" "export" _).mpr ⟨⟨2020, 3.0, exported⟩, _, _, _, single, rfl⟩
  have bare : ((patchyBaseline.withTrend ⟨2018, 2021⟩).regions? 2021).bind
      (fun table => table.get? "nafta") = none := by decide +kernel
  rw [extended, Option.bind_some] at bare
  have same (year : Int) :
      patchyBaseline.value? year "china" "reuse" = fullerBaseline.value? year "china" "reuse" := by
    rw [fullerBaseline, insert_value]
    split
    · rfl
    · rfl
  refine ⟨⟨first, data, kept _ _ _ _ data⟩, missing, ⟨table, extended, bare, ?_, _, held, ?_⟩,
    alike _ _ _ _ _ _ _ same missing (by decide +kernel) (by decide) (by decide)⟩
  · exact (cells _ _ _).mpr ⟨⟨2018, 10.0, observed⟩, _, _, _, fits, by decide +kernel⟩
  · exact level _ _ _ _ missing extended _ _ _ 2020 3.0 held alone (by decide +kernel) (by decide +kernel)

end Baseline

end PolicyLevers
