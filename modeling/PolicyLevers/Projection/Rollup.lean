import PolicyLevers.Ledger.Catalog
import PolicyLevers.Ledger.State

/-!
# The global rollup

The region `global` holds the sums over all other regions.  An attribute that a region lacks counts as
zero there.  Net imports are listed with zero, for between regions they cancel out.
-/

namespace PolicyLevers

set_option autoImplicit false

def addToTotals (totals attributes : Attributes) : Attributes :=
  attributes.entries.foldl (fun totals (name, value) =>
    totals.change name 0.0 (fun total =>
      if Catalog.isRollupExcluded name then total else total + value)) totals

namespace State

/-- The sums of every attribute over all regions but the global one, in the order of their names. -/
def rollup (state : State) : Attributes :=
  (state.regions.entries.filter (fun (name, _) => name ≠ Catalog.globalRegion)).foldl
    (fun totals (_, attributes) => addToTotals totals attributes) ∅

def withRollup (state : State) : State := state.setRegion Catalog.globalRegion state.rollup

end State

end PolicyLevers
