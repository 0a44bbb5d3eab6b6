import Mathlib.Data.List.Basic
import PolicyLevers.Projection.Series
import PolicyLevers.Proofs.TrendLines

/-!
# Running totals over the years

Running totals forget nothing.  After a year they have every region and every attribute that occurred so far, and
an attribute holds the sum of its values in the order of their years.  A year that lacks an attribute leaves its
sum as it is, and later years have no influence on the totals of earlier ones.
-/

namespace PolicyLevers

set_option autoImplicit false

open SortedMap

namespace SortedMap

variable {κ ν : Type} [Ord κ] [Std.LawfulEqOrd κ]

theorem values_filter_map {μ : Type} (map : SortedMap κ ν) (pick : ν → Option μ) :
    map.values.filterMap pick = map.keys.filterMap (fun key => (map.get? key).bind pick) := by
  unfold values keys
  rw [List.filterMap_map, List.filterMap_map]
  apply List.filterMap_congr
  rintro ⟨key, value⟩ member
  have found : map.get? key = some value := (mem_iff_lookup map.ascending key value).mp member
  simp [found]

end SortedMap

/-! ## The totals after one more table -/

def addRow (sums attributes : Attributes) : Attributes :=
  attributes.entries.foldl (fun sums entry => sums.change entry.1 0.0 (fun sum => sum + entry.2)) sums

def addValue? (sum value : Option Float) : Option Float :=
  (value.map (fun value => sum.getD 0.0 + value)).or sum

theorem get_add_row (sums attributes : Attributes) (name : String) :
    (addRow sums attributes).get? name = addValue? (sums.get? name) (attributes.get? name) :=
  get_change_all attributes sums 0.0 (fun _ value sum => sum + value) name

theorem get_add_table (running table : RegionTable) (region : String) :
    (addTable running table).get? region =
      ((table.get? region).map (fun row => addRow ((running.get? region).getD ∅) row)).or
        (running.get? region) :=
  get_change_all table running ∅ (fun _ row sums => addRow sums row) region

theorem cell_add_table (running table : RegionTable) (region name : String) :
    cell? (addTable running table) region name =
      addValue? (cell? running region name) (cell? table region name) := by
  unfold cell?
  rw [get_add_table]
  cases table.get? region with
  | none => rfl
  | some row =>
      refine (get_add_row _ row name).trans ?_
      cases running.get? region <;> rfl

/-! ## The totals after some tables -/

theorem region_add_tables (tables : List RegionTable) (running : RegionTable) (region : String) :
    (∃ row, (tables.foldl addTable running).get? region = some row) ↔
      (∃ row, running.get? region = some row) ∨
        ∃ table ∈ tables, ∃ row, table.get? region = some row := by
  induction tables generalizing running with
  | nil => simp
  | cons table rest induction =>
      rw [List.foldl_cons, induction, get_add_table, List.exists_mem_cons_iff, ← or_assoc]
      apply or_congr_left
      cases table.get? region <;> cases running.get? region <;> simp

theorem cell_add_tables (tables : List RegionTable) (running : RegionTable) (region name : String) :
    cell? (tables.foldl addTable running) region name =
      (tables.map (fun table => cell? table region name)).foldl addValue? (cell? running region name) := by
  induction tables generalizing running with
  | nil => rfl
  | cons table rest induction =>
      rw [List.foldl_cons, induction, cell_add_table]
      rfl

/-- A sum is there from the first value on, and years without a value leave it alone. -/
theorem added_values_eq (values : List (Option Float)) (sum : Option Float) :
    values.foldl addValue? sum =
      if values.filterMap id = [] then sum
      else some ((values.filterMap id).foldl (· + ·) (sum.getD 0.0)) := by
  induction values generalizing sum with
  | nil => rfl
  | cons value rest induction =>
      rw [List.foldl_cons, induction]
      cases value with
      | none => rfl
      | some number =>
          have present : (some number :: rest).filterMap id = number :: rest.filterMap id := rfl
          rw [present, if_neg (List.cons_ne_nil _ _), List.foldl_cons]
          cases rest.filterMap id <;> rfl

/-! ## The years of a series -/

namespace LedgerSeries

def value? (series : LedgerSeries) (year : Int) (region name : String) : Option Float :=
  (series.get? year).bind (fun table => cell? table region name)

def upTo (series : LedgerSeries) (year : Int) : LedgerSeries :=
  series.filterMap (fun earlier table => if earlier ≤ year then some table else none)

theorem get_up_to (series : LedgerSeries) (year earlier : Int) :
    (series.upTo year).get? earlier = if earlier ≤ year then series.get? earlier else none := by
  rw [upTo, get_filter_map]
  by_cases before : earlier ≤ year <;> simp [before]

/-- Running totals at a year are the totals of the tables up to it. -/
theorem running_totals_lookup {entries : List (Int × RegionTable)}
    (ascending : entries.Pairwise (fun earlier later => compare earlier.1 later.1 = .lt))
    (running : RegionTable) (year : Int) :
    lookup year (runningTotals running entries) = (lookup year entries).map (fun _ =>
      (entries.filterMap (fun entry => if entry.1 ≤ year then some entry.2 else none)).foldl
        addTable running) := by
  induction entries generalizing running with
  | nil => rfl
  | cons entry rest induction =>
      obtain ⟨head, table⟩ := entry
      obtain ⟨below, restAscending⟩ := List.pairwise_cons.mp ascending
      have later : ∀ entry ∈ rest, head < entry.1 :=
        fun entry member => Int.compare_eq_lt.mp (below entry member)
      rw [runningTotals]
      by_cases here : year = head
      · subst here
        have rest_dropped : rest.filterMap (fun entry =>
            if entry.1 ≤ year then some entry.2 else none) = [] := by
          rw [List.filterMap_eq_nil_iff]
          intro entry member
          exact if_neg (Int.not_le.mpr (later entry member))
        simp [lookup, rest_dropped]
      · have different : ¬compare year head = .eq :=
          fun same => here (Std.LawfulEqOrd.eq_of_compare same)
        simp only [lookup, different, if_false]
        rw [induction restAscending]
        cases found : lookup year rest with
        | none => rfl
        | some data =>
            have before : head < year :=
              later _ ((mem_iff_lookup restAscending year data).mpr found)
            simp [Int.le_of_lt before]

theorem get_cumulative (series : LedgerSeries) (year : Int) :
    series.cumulative.get? year =
      (series.get? year).map (fun _ => (series.upTo year).values.foldl addTable ∅) := by
  have tables : (series.upTo year).values = series.entries.filterMap (fun entry =>
      if entry.1 ≤ year then some entry.2 else none) := by
    unfold values upTo SortedMap.filterMap
    rw [List.map_filterMap]
    congr 1
    funext entry
    by_cases before : entry.1 ≤ year <;> simp [before]
  rw [tables]
  exact running_totals_lookup series.ascending ∅ year

/-! ## What the totals of a year are -/

variable {series : LedgerSeries} {year : Int} {region name : String}

theorem mem_up_to (table : RegionTable) : table ∈ (series.upTo year).values ↔
    ∃ earlier, earlier ≤ year ∧ series.get? earlier = some table := by
  simp only [mem_values, get_up_to, Option.ite_none_right_eq_some]

def yearsWith (series : LedgerSeries) (year : Int) (region name : String) : List Int :=
  (series.upTo year).keys.filter (fun earlier => (series.value? earlier region name).isSome)

theorem years_with_ascend (series : LedgerSeries) (year : Int) (region name : String) :
    (series.yearsWith year region name).Pairwise (· < ·) := by
  apply List.Pairwise.filter
  rw [keys, List.pairwise_map]
  exact (series.upTo year).ascending.imp (fun less => Int.compare_eq_lt.mp less)

theorem mem_years_with (earlier : Int) : earlier ∈ series.yearsWith year region name ↔
    earlier ≤ year ∧ ∃ value, series.value? earlier region name = some value := by
  rw [yearsWith, List.mem_filter, Option.isSome_iff_exists, mem_keys, get_up_to, and_congr_left_iff]
  rintro ⟨value, found⟩
  obtain ⟨table, data, _⟩ := Option.bind_eq_some_iff.mp found
  simp [data]

theorem values_up_to (series : LedgerSeries) (year : Int) (region name : String) :
    (series.upTo year).values.filterMap (fun table => cell? table region name) =
      (series.yearsWith year region name).filterMap
        (fun earlier => series.value? earlier region name) := by
  rw [values_filter_map, yearsWith, List.filterMap_filter]
  apply List.filterMap_congr
  intro earlier member
  obtain ⟨table, found⟩ := (mem_keys _ earlier).mp member
  have data := found
  rw [get_up_to, Option.ite_none_right_eq_some] at data
  rw [found, value?, data.2, Option.bind_some]
  cases cell? table region name <;> rfl

theorem total_up_to (series : LedgerSeries) (year : Int) (region name : String) :
    cell? ((series.upTo year).values.foldl addTable ∅) region name =
      if series.yearsWith year region name = [] then none
      else some (((series.yearsWith year region name).filterMap
        (fun earlier => series.value? earlier region name)).foldl (· + ·) 0.0) := by
  have present : (series.yearsWith year region name).filterMap
      (fun earlier => series.value? earlier region name) = [] ↔
        series.yearsWith year region name = [] := by
    rw [List.filterMap_eq_nil_iff, List.eq_nil_iff_forall_not_mem]
    refine forall_congr' fun earlier => ⟨fun missing member => ?_, fun outside member => ?_⟩
    · obtain ⟨_, value, found⟩ := (mem_years_with earlier).mp member
      rw [missing member] at found
      cases found
    · exact absurd member outside
  rw [cell_add_tables, added_values_eq, List.filterMap_map, Function.id_comp, values_up_to]
  simp only [present]
  rfl

theorem total_present_iff :
    (∃ sum, cell? ((series.upTo year).values.foldl addTable ∅) region name = some sum) ↔
      ∃ earlier, earlier ≤ year ∧ ∃ value, series.value? earlier region name = some value := by
  rw [total_up_to]
  simp only [← mem_years_with]
  by_cases nothing : series.yearsWith year region name = []
  · simp [nothing]
  · simpa [nothing] using List.exists_mem_of_ne_nil _ nothing

theorem up_to_congr {other : LedgerSeries}
    (same : ∀ earlier, earlier ≤ year → series.get? earlier = other.get? earlier) :
    series.upTo year = other.upTo year := by
  apply ext_get
  intro earlier
  rw [get_up_to, get_up_to]
  by_cases before : earlier ≤ year
  · rw [if_pos before, if_pos before, same earlier before]
  · rw [if_neg before, if_neg before]

/-- The running totals of a series, whatever regions and attributes its years have.  The years stay.  The table
of a year has a region, or an attribute in it, exactly if some year up to it has, and the attribute holds the sum
of its values in those years, added up from zero in the order of the years.  So no attribute is lost again, and
the totals up to a year are those of every series that agrees up to it. -/
theorem cumulative_sums_years_so_far (series : LedgerSeries) :
    series.cumulative.keys = series.keys ∧
    (∀ year table, series.cumulative.get? year = some table →
      (∀ region, (∃ row, table.get? region = some row) ↔ ∃ earlier, earlier ≤ year ∧
        ∃ data, series.get? earlier = some data ∧ ∃ row, data.get? region = some row) ∧
      (∀ region name, (∃ sum, cell? table region name = some sum) ↔
        ∃ earlier, earlier ≤ year ∧ ∃ value, series.value? earlier region name = some value) ∧
      ∀ region name sum, cell? table region name = some sum →
        ∃ years : List Int, years.Pairwise (· < ·) ∧
          (∀ earlier, earlier ∈ years ↔
            earlier ≤ year ∧ ∃ value, series.value? earlier region name = some value) ∧
          sum = (years.filterMap (fun earlier => series.value? earlier region name)).foldl
            (· + ·) 0.0) ∧
    (∀ earlier later table region name sum, earlier ≤ later →
      series.cumulative.value? earlier region name = some sum → series.get? later = some table →
      ∃ laterSum, series.cumulative.value? later region name = some laterSum) ∧
    ∀ (other : LedgerSeries) (year : Int),
      (∀ earlier, earlier ≤ year → series.get? earlier = other.get? earlier) →
      ∀ earlier, earlier ≤ year → series.cumulative.get? earlier = other.cumulative.get? earlier := by
  refine ⟨running_totals_years ∅ series.entries, ?_, ?_, ?_⟩
  · intro year table found
    rw [get_cumulative, Option.map_eq_some_iff] at found
    obtain ⟨_, _, rfl⟩ := found
    refine ⟨fun region => ?_, fun region name => total_present_iff, ?_⟩
    · rw [region_add_tables]
      simp only [mem_up_to, get_empty]
      constructor
      · rintro (⟨_, none⟩ | ⟨data, ⟨earlier, before, held⟩, row⟩)
        · cases none
        · exact ⟨earlier, before, data, held, row⟩
      · rintro ⟨earlier, before, data, held, row⟩
        exact .inr ⟨data, ⟨earlier, before, held⟩, row⟩
    · intro region name sum found
      rw [total_up_to] at found
      split at found
      · cases found
      · exact ⟨_, years_with_ascend series year region name, fun earlier => mem_years_with earlier,
          (Option.some.inj found).symm⟩
  · intro earlier later table region name sum before found data
    obtain ⟨totals, here, cell⟩ := Option.bind_eq_some_iff.mp found
    rw [get_cumulative, Option.map_eq_some_iff] at here
    obtain ⟨_, _, rfl⟩ := here
    obtain ⟨first, early, value, held⟩ := total_present_iff.mp ⟨sum, cell⟩
    obtain ⟨laterSum, laterCell⟩ :=
      total_present_iff.mpr ⟨first, Int.le_trans early before, value, held⟩
    refine ⟨laterSum, ?_⟩
    rw [value?, get_cumulative, data]
    exact laterCell
  · intro other year same earlier before
    have agree := up_to_congr (fun first early => same first (Int.le_trans early before))
    rw [get_cumulative, get_cumulative, same earlier before, agree]

/-- An attribute that a year in between lacks, one that starts late, and a region without attributes. -/
def pausingSeries : LedgerSeries :=
  .ofList [(2020, .ofList [("china", .ofList [("reuse", 0.1)]), ("nafta", ∅)]), (2021, ∅),
    (2022, .ofList [("china", .ofList [("reuse", 0.2), ("export", -1.5)])])]

theorem paused_sum_goes_on :
    (∃ table, pausingSeries.cumulative.get? 2022 = some table ∧
      (∃ row, table.get? "nafta" = some row) ∧
      cell? table "china" "reuse" = some 0.30000000000000004 ∧
      ∃ years : List Int, years.Pairwise (· < ·) ∧
        (∀ earlier, earlier ∈ years ↔
          earlier ≤ 2022 ∧ ∃ value, pausingSeries.value? earlier "china" "reuse" = some value) ∧
        0.30000000000000004 = (years.filterMap
          (fun earlier => pausingSeries.value? earlier "china" "reuse")).foldl (· + ·) 0.0) ∧
    (∃ sum, pausingSeries.cumulative.value? 2021 "china" "reuse" = some sum) ∧
    pausingSeries.cumulative.get? 2021 = (pausingSeries.upTo 2021).cumulative.get? 2021 := by
  obtain ⟨_, tables, stays, depends⟩ := cumulative_sums_years_so_far pausingSeries
  have first : pausingSeries.cumulative.value? 2020 "china" "reuse" = some 0.1 := by decide +kernel
  have between : pausingSeries.get? 2021 = some ∅ := by decide +kernel
  have last : (pausingSeries.cumulative.get? 2022).bind (fun table => cell? table "china" "reuse") =
      some 0.30000000000000004 := by decide +kernel
  obtain ⟨table, found, summed⟩ := Option.bind_eq_some_iff.mp last
  obtain ⟨regions, _, sums⟩ := tables 2022 table found
  have bare : (pausingSeries.get? 2020).bind (fun table => table.get? "nafta") = some ∅ := by
    decide +kernel
  obtain ⟨data, held, row⟩ := Option.bind_eq_some_iff.mp bare
  refine ⟨⟨table, found, (regions "nafta").mpr ⟨2020, by decide, data, held, ∅, row⟩, summed,
      sums "china" "reuse" _ summed⟩,
    stays 2020 2021 ∅ "china" "reuse" _ (by decide) first between,
    depends (pausingSeries.upTo 2021) 2021 (fun earlier before => ?_) 2021 (by decide)⟩
  rw [get_up_to, if_pos before]

end LedgerSeries

end PolicyLevers
