/-!
# JSON documents

A document as it is written: members of an object keep their order and may repeat a key, and numbers
keep their digits, so that a reader of documents can tell whole numbers from decimals.
-/

namespace PolicyLevers

set_option autoImplicit false

/-- A text whose escapes may fail to name Unicode characters; then it has no value, and only a reader
that skips it accepts it. -/
abbrev JsonText := Option String

inductive Json where
  | null
  | bool (value : Bool)
  | number (digits : List Char)
  | text (content : JsonText)
  | array (items : List Json)
  | object (members : List (JsonText × Json))

namespace Json

def string (content : String) : Json := .text (some content)

def record (members : List (String × Json)) : Json :=
  .object (members.map (fun (key, value) => (some key, value)))

end Json

end PolicyLevers
