import PolicyLevers.Ledger.Catalog
import PolicyLevers.Ledger.State
import PolicyLevers.Ledger.Total

/-!
# Baselines

A baseline holds the quantities of every region in every year for which there is data.  Years without
data can be filled by extending the straight lines that fit the data best, and the quantities of a
group can be replaced by their shares in it.
-/

namespace PolicyLevers

set_option autoImplicit false

structure YearRange where
  first : Int
  last : Int
  deriving DecidableEq, Repr

def YearRange.years (range : YearRange) : List Int :=
  (List.range (range.last + 1 - range.first).toNat).map (fun (offset : Nat) => range.first + offset)

def YearRange.contains (range : YearRange) (year : Int) : Bool :=
  range.first ≤ year && year ≤ range.last

structure BaselineRecord where
  year : Int
  region : String
  attributes : Attributes
  deriving DecidableEq

structure Baseline where
  years : SortedMap Int RegionTable
  deriving DecidableEq

structure Observation where
  year : Float
  value : Float

structure Line where
  intercept : Float
  slope : Float

/-- The line that fits some observations best.  The line of a single observation is level. -/
def Line.fit (observations : List Observation) : Line :=
  let count := Float.ofNat observations.length
  let add (term : Observation → Float) : Float := total (observations.map term)
  let meanYear := add Observation.year / count
  let meanValue := add Observation.value / count
  let spread := add (fun point => (point.year - meanYear) * (point.year - meanYear))
  let covariation := add (fun point => (point.year - meanYear) * (point.value - meanValue))
  let slope := if spread == 0.0 then 0.0 else covariation / spread
  ⟨meanValue - slope * meanYear, slope⟩

def Line.at (line : Line) (year : Float) : Float := line.intercept + line.slope * year

/-- The attributes with those of a group divided by the sum of the group.  A sum that is zero or not
finite changes nothing. -/
def Attributes.normalized (attributes : Attributes) (group : List String) : Attributes :=
  let whole := total (group.filterMap attributes.get?)
  if whole == 0.0 || !whole.isFinite then attributes
  else attributes.mapValues (fun name value => if group.contains name then value / whole else value)

namespace Baseline

def empty : Baseline := ⟨∅⟩

def regions? (baseline : Baseline) (year : Int) : Option RegionTable := baseline.years.get? year

def containsYear (baseline : Baseline) (year : Int) : Bool := baseline.years.contains year

/-- Adds a record; its attributes replace those already there. -/
def insert (baseline : Baseline) (record : BaselineRecord) : Baseline :=
  ⟨baseline.years.change record.year ∅ (fun table =>
    table.change record.region ∅ (fun attributes => attributes.union record.attributes))⟩

def ofRecords (records : List BaselineRecord) : Baseline := records.foldl insert empty

def observations (baseline : Baseline) (region name : String) : List Observation :=
  baseline.years.entries.filterMap (fun (year, table) =>
    ((table.get? region).bind (fun attributes => attributes.get? name)).map
      (fun value => ⟨Decimal.ofInt year, value⟩))

/-- Marks the attributes of a table, region by region; regions without attributes are left out. -/
def markTable (marked : NameMap (NameMap Unit)) (table : RegionTable) : NameMap (NameMap Unit) :=
  table.entries.foldl (fun marked (region, attributes) =>
    if attributes.isEmpty then marked
    else
      marked.change region ∅ (fun names =>
        attributes.entries.foldl (fun names (name, _) => names.insert name ()) names)) marked

def occurring (baseline : Baseline) : NameMap (NameMap Unit) :=
  baseline.years.values.foldl markTable ∅

def lines (baseline : Baseline) : NameMap (NameMap Line) :=
  baseline.occurring.mapValues (fun region names =>
    names.mapValues (fun name _ => Line.fit (baseline.observations region name)))

/-- The baseline with every year of a range that has no data filled from the best lines. -/
def withTrend (baseline : Baseline) (range : YearRange) : Baseline :=
  let lines := baseline.lines
  let tableOf (year : Int) : RegionTable :=
    lines.mapValues (fun _ names => names.mapValues (fun _ line => line.at (Decimal.ofInt year)))
  ⟨range.years.foldl (fun years year =>
    if years.contains year then years else years.insert year (tableOf year)) baseline.years⟩

/-- The baseline with consumption and end of life replaced by shares in each year of a range. -/
def withNormalizedShares (baseline : Baseline) (range : YearRange) : Baseline :=
  ⟨baseline.years.mapValues (fun year table =>
    if range.contains year then
      table.mapValues (fun _ attributes =>
        Attributes.normalized (Attributes.normalized attributes Catalog.consumption) Catalog.endOfLife)
    else table)⟩

end Baseline

end PolicyLevers
