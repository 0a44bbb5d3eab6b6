import PolicyLevers.SortedMap
import PolicyLevers.Decimal.Binary
import PolicyLevers.Ledger.Path

/-!
# The state of one simulation year

A state has local variables, a ledger of regions and their attributes, lever inputs, numbers that
give the context (the year among them), and the values that a script asked to inspect.  Programs reach
it through paths only.  Reading needs every segment of a path to exist; writing needs all but the
last.
-/

namespace PolicyLevers

set_option autoImplicit false

abbrev Attributes := NameMap Float

abbrev RegionTable := NameMap Attributes

/-- An entry of the ledger: a region, or a number that a script stored in its place. -/
inductive LedgerEntry where
  | number (value : Float)
  | region (attributes : Attributes)
  deriving DecidableEq

def LedgerEntry.attributes? : LedgerEntry → Option Attributes
  | .number _ => none
  | .region attributes => some attributes

structure InspectRecord where
  name : String
  value : Float
  deriving DecidableEq

structure State where
  locals : NameMap Float := ∅
  ledger : NameMap LedgerEntry := ∅
  inputs : NameMap Float := ∅
  context : NameMap Float := ∅
  inspected : List InspectRecord := []
  deriving DecidableEq

namespace State

def empty : State := {}

def yearName : String := "year"

def setYear (state : State) (year : Int) : State :=
  { state with context := state.context.insert yearName (Decimal.ofInt year) }

def forYear (year : Int) : State := empty.setYear year

/-- The year of the state: the whole part of the number in the context, within 32 bits. -/
def year (state : State) : Except RuntimeError Int :=
  match state.context.get? yearName with
  | some value => .ok (Decimal.truncateInt32 value)
  | none => .error .missingYear

/-- The state without the variables and inspected values of the lever before. -/
def resetScratch (state : State) : State := { state with locals := ∅, inspected := [] }

/-- The attributes of a region; nothing for an absent entry or a plain number. -/
def region? (state : State) (name : String) : Option Attributes :=
  (state.ledger.get? name).bind LedgerEntry.attributes?

def regions (state : State) : RegionTable :=
  state.ledger.filterMap (fun _ entry => entry.attributes?)

def setRegion (state : State) (name : String) (attributes : Attributes) : State :=
  { state with ledger := state.ledger.insert name (.region attributes) }

/-- Sets one attribute of a region, which is made if it is absent or a plain number. -/
def setAttribute (state : State) (region name : String) (value : Float) : State :=
  state.setRegion region (((state.region? region).getD ∅).insert name value)

/-- Declares a local variable; a name can be declared once. -/
def defineLocal (state : State) (name : String) (value : Float) : Except RuntimeError State :=
  if state.locals.contains name then .error (.duplicateLocal name)
  else .ok { state with locals := state.locals.insert name value }

def getFlat (names : NameMap Float) (path : Path) : Except RuntimeError Float :=
  match names.get? path.first, path.rest with
  | some value, [] => .ok value
  | some _, next :: _ => .error (path.notFound next)
  | none, _ => .error (path.notFound path.first)

def getLedger (ledger : NameMap LedgerEntry) (path : Path) : Except RuntimeError Float :=
  match ledger.get? path.first, path.rest with
  | none, _ => .error (path.notFound path.first)
  | some (.number value), [] => .ok value
  | some (.number _), next :: _ => .error (path.notFound next)
  | some (.region _), [] => .error (.notANumber path.text)
  | some (.region attributes), name :: further =>
    match attributes.get? name, further with
    | some value, [] => .ok value
    | some _, next :: _ => .error (path.notFound next)
    | none, _ => .error (path.notFound name)

def get (state : State) (path : Path) : Except RuntimeError Float :=
  match path.area with
  | none => .error (path.notFound path.head)
  | some .locals => getFlat state.locals path
  | some .inputs => getFlat state.inputs path
  | some .context => getFlat state.context path
  | some .ledger => getLedger state.ledger path

def setFlat (names : NameMap Float) (path : Path) (value : Float) :
    Except RuntimeError (NameMap Float) :=
  match path.rest with
  | [] => .ok (names.insert path.first value)
  | next :: _ =>
    if names.contains path.first then .error (path.notFound next)
    else .error (path.notFound path.first)

/-- The ledger after a write.  A path of one segment replaces the whole entry. -/
def setLedger (ledger : NameMap LedgerEntry) (path : Path) (value : Float) :
    Except RuntimeError (NameMap LedgerEntry) :=
  match path.rest with
  | [] => .ok (ledger.insert path.first (.number value))
  | name :: further =>
    match ledger.get? path.first, further with
    | none, _ => .error (path.notFound path.first)
    | some (.number _), _ => .error (path.notFound name)
    | some (.region attributes), [] =>
      .ok (ledger.insert path.first (.region (attributes.insert name value)))
    | some (.region attributes), next :: _ =>
      if attributes.contains name then .error (path.notFound next)
      else .error (path.notFound name)

def set (state : State) (path : Path) (value : Float) : Except RuntimeError State :=
  match path.area with
  | none => .error (path.notFound path.head)
  | some .locals => (setFlat state.locals path value).map (fun names => { state with locals := names })
  | some .inputs => (setFlat state.inputs path value).map (fun names => { state with inputs := names })
  | some .context => (setFlat state.context path value).map (fun names => { state with context := names })
  | some .ledger => (setLedger state.ledger path value).map (fun ledger => { state with ledger := ledger })

end State

end PolicyLevers
