import PolicyLevers.Text.Blank
import PolicyLevers.Ledger.RuntimeError

/-!
# Paths

A dotted identifier names a place in the state: a section and the segments after it.  A bare name is
short for a local variable.  A path is split once, when a program is built.
-/

namespace PolicyLevers

set_option autoImplicit false

inductive Section where
  | locals
  | ledger
  | inputs
  | context
  deriving DecidableEq, Repr

def Section.ofName? : String → Option Section
  | "local" => some .locals
  | "out" => some .ledger
  | "in" => some .inputs
  | "meta" => some .context
  | _ => none

structure Path where
  text : String
  head : String
  /-- Nothing if the first segment names no section; such a path leads nowhere. -/
  area : Option Section
  first : String
  rest : List String
  deriving DecidableEq, Repr

namespace Path

/-- Splits a text at its periods; a text without one is a local variable. -/
def parse (text : String) : Path :=
  match Text.splitAt '.' text.toList with
  | (_, []) => ⟨text, text, some .locals, text, []⟩
  | (head, first :: rest) =>
    let head := String.ofList head
    ⟨text, head, Section.ofName? head, String.ofList first, rest.map String.ofList⟩

def input (name : String) : Path := parse ("in." ++ name)

def last (path : Path) : String := path.rest.getLastD path.first

def region? (path : Path) : Option String :=
  match path.area, path.rest with
  | some .ledger, [_] => some path.first
  | _, _ => none

def notFound (path : Path) (segment : String) : RuntimeError := .notFound segment path.text

end Path

end PolicyLevers
