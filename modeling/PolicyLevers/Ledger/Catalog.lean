/-!
# The catalog of ledger attributes

Attributes that the rules of the ledger know by name, and the families they fall into.  Other names
are allowed in a ledger; they belong to no family.
-/

namespace PolicyLevers.Catalog

set_option autoImplicit false

/-- The region that holds the rollup of all other regions. -/
def globalRegion : String := "global"

def consumption : List String :=
  ["consumptionAgricultureMT", "consumptionConstructionMT", "consumptionElectronicMT",
    "consumptionHouseholdLeisureSportsMT", "consumptionPackagingMT", "consumptionTransporationMT",
    "consumptionTextileMT", "consumptionOtherMT"]

def endOfLife : List String :=
  ["eolLandfillMT", "eolIncinerationMT", "eolRecyclingMT", "eolMismanagedMT", "netWasteExportMT",
    "netWasteImportMT"]

def production : List String :=
  ["netImportsMT", "netExportsMT", "primaryProductionMT", "secondaryProductionMT"]

/-- Net imports, which cancel out between regions and count as zero in a rollup. -/
def netTrade : List String := ["netImportsMT", "netWasteImportMT"]

def recyclingDelay : String := "recyclingDelay"

inductive Family where
  | consumption
  | endOfLife
  | production
  deriving DecidableEq, Repr

def Family.members : Family → List String
  | .consumption => Catalog.consumption
  | .endOfLife => Catalog.endOfLife
  | .production => Catalog.production

def family? (name : String) : Option Family :=
  [Family.consumption, .endOfLife, .production].find? (fun family => family.members.contains name)

def isRollupExcluded (name : String) : Bool := netTrade.contains name

/-- A text with every occurrence of `MT` replaced by `Lifecycle`. -/
def renameTons : List Char → List Char
  | 'M' :: 'T' :: rest => "Lifecycle".toList ++ renameTons rest
  | c :: rest => c :: renameTons rest
  | [] => []

/-- The input that holds the product lifetime of a consumption name: the one of
`consumptionPackagingMT` is `consumptionPackagingLifecycle`. -/
def lifetimeInput (name : String) : String := String.ofList (renameTons name.toList)

end PolicyLevers.Catalog
