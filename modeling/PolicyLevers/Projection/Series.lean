import PolicyLevers.Ledger.Total
import PolicyLevers.Projection.Rollup

/-!
# Views of a projection

A projection has one state a year.  Its views are tables of regions and attributes by year: the ledger
itself, the difference to another projection, running totals, and shares within a region.
-/

namespace PolicyLevers

set_option autoImplicit false

abbrev Projection := SortedMap Int State

abbrev LedgerSeries := SortedMap Int RegionTable

namespace Projection

def series (projection : Projection) : LedgerSeries :=
  projection.mapValues (fun _ state => state.regions)

/-- What a projection differs by from another one.  What the other one lacks counts as zero there. -/
def relativeTo (projection reference : Projection) : LedgerSeries :=
  projection.mapValues (fun year state =>
    state.regions.mapValues (fun region attributes =>
      let base := ((reference.get? year).bind (fun other => other.region? region)).getD ∅
      attributes.mapValues (fun name value => value - (base.get? name).getD 0.0)))

end Projection

/-- Adds the values of a table to running totals, which start from zero. -/
def addTable (running table : RegionTable) : RegionTable :=
  table.entries.foldl (fun running (region, attributes) =>
    running.change region ∅ (fun sums =>
      attributes.entries.foldl (fun sums (name, value) => sums.change name 0.0 (· + value)) sums))
    running

def runningTotals (running : RegionTable) : List (Int × RegionTable) → List (Int × RegionTable)
  | [] => []
  | (year, table) :: rest =>
    let sums := addTable running table
    (year, sums) :: runningTotals sums rest

theorem running_totals_years (running : RegionTable) (tables : List (Int × RegionTable)) :
    (runningTotals running tables).map (·.1) = tables.map (·.1) := by
  induction tables generalizing running with
  | nil => rfl
  | cons head rest ih => simp [runningTotals, ih]

def LedgerSeries.cumulative (series : LedgerSeries) : LedgerSeries :=
  ⟨runningTotals ∅ series.entries, by
    have years : (series.entries.map (·.1)).Pairwise (fun earlier later => compare earlier later = .lt) :=
      List.pairwise_map.mpr series.ascending
    rw [← running_totals_years ∅ series.entries] at years
    exact List.pairwise_map.mp years⟩

inductive ShareScale where
  | fraction
  | percent
  deriving DecidableEq, Repr

def ShareScale.factor : ShareScale → Float
  | fraction => 1.0
  | percent => 100.0

/-- The share of each attribute of a group in the sum of the group.  Attributes that are absent count
as zero, and so does every share of a sum of zero. -/
def Attributes.shares (attributes : Attributes) (group : List String) (scale : ShareScale) :
    Attributes :=
  let value (name : String) : Float := (attributes.get? name).getD 0.0
  let whole := total (group.map value)
  .ofList (group.map (fun name =>
    (name, if whole == 0.0 then 0.0 else value name / whole * scale.factor)))

def RegionTable.shares (table : RegionTable) (group : List String) (scale : ShareScale) :
    RegionTable :=
  table.mapValues (fun _ attributes => Attributes.shares attributes group scale)

end PolicyLevers
