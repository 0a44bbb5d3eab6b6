/-!
# File paths

Paths with slashes between their components.  Empty components and components of a single period name
nothing, except for a period at the start of a path.
-/

namespace PolicyLevers.Text

set_option autoImplicit false

/-- Splits off what comes before the first component: a slash, or a period for the directory one is
in. -/
def splitHead : List Char → List Char × List Char
  | '/' :: rest => (['/'], rest)
  | ['.'] => (['.'], [])
  | '.' :: '/' :: rest => (['.'], '/' :: rest)
  | path => ([], path)

/-- Drops what names nothing from the end of a path that is given backwards. -/
def trimBackwards : List Char → List Char
  | '/' :: rest => trimBackwards rest
  | '.' :: '/' :: rest => trimBackwards rest
  | ['.'] => []
  | path => path

/-- The directory that a path lies in; empty if the path has one component only. -/
def parentPath (path : String) : String :=
  let (head, body) := splitHead path.toList
  let backwards := trimBackwards body.reverse
  if backwards.isEmpty then ""
  else String.ofList (head ++ (trimBackwards (backwards.dropWhile (· ≠ '/'))).reverse)

def joinPath (directory path : String) : String :=
  if directory.isEmpty || path.toList.head? = some '/' then path
  else if directory.toList.getLast? = some '/' then directory ++ path
  else directory ++ "/" ++ path

end PolicyLevers.Text
