import PolicyLevers.Json.Value
import PolicyLevers.Decimal.Layout

/-!
# Writing JSON

Two forms of one document: on one line without blanks, and one item a line with two blanks for each
level of nesting, where empty arrays and objects stay on the line.
-/

namespace PolicyLevers.Json

set_option autoImplicit false

def int (value : Int) : Json := .number (toString value).toList

/-- A double; what is no finite number is null. -/
def float (value : Float) : Json :=
  if value.isFinite then .number (Decimal.document.render value).toList else .null

def escape (c : Char) : List Char :=
  match c with
  | '"' => ['\\', '"']
  | '\\' => ['\\', '\\']
  | '\x08' => ['\\', 'b']
  | '\x0c' => ['\\', 'f']
  | '\n' => ['\\', 'n']
  | '\r' => ['\\', 'r']
  | '\t' => ['\\', 't']
  | c =>
    if c.toNat < 0x20 then
      ['\\', 'u', '0', '0', Nat.digitChar (c.toNat / 16), Nat.digitChar (c.toNat % 16)]
    else [c]

def quote (content : List Char) : List Char := '"' :: (content.flatMap escape ++ ['"'])

/-- A text that has no value is written as an empty one. -/
def quoteText (content : JsonText) : List Char := quote (content.getD "").toList

mutual

def compact : Json → List Char
  | .null => "null".toList
  | .bool value => (if value then "true" else "false").toList
  | .number digits => digits
  | .text content => quoteText content
  | .array items => '[' :: (compactItems items ++ [']'])
  | .object members => '\x7b' :: (compactMembers members ++ ['\x7d'])

def compactItems : List Json → List Char
  | [] => []
  | [item] => compact item
  | item :: next :: rest => compact item ++ ',' :: compactItems (next :: rest)

def compactMembers : List (JsonText × Json) → List Char
  | [] => []
  | [(key, value)] => quoteText key ++ ':' :: compact value
  | (key, value) :: next :: rest =>
    quoteText key ++ ':' :: (compact value ++ ',' :: compactMembers (next :: rest))

end

def lineBreak (level : Nat) : List Char := '\n' :: List.replicate (2 * level) ' '

mutual

def prettyAt (level : Nat) : Json → List Char
  | .null => "null".toList
  | .bool value => (if value then "true" else "false").toList
  | .number digits => digits
  | .text content => quoteText content
  | .array [] => ['[', ']']
  | .array items => '[' :: (prettyItems (level + 1) items ++ (lineBreak level ++ [']']))
  | .object [] => ['\x7b', '\x7d']
  | .object members =>
    '\x7b' :: (prettyMembers (level + 1) members ++ (lineBreak level ++ ['\x7d']))

def prettyItems (level : Nat) : List Json → List Char
  | [] => []
  | [item] => lineBreak level ++ prettyAt level item
  | item :: next :: rest =>
    lineBreak level ++ (prettyAt level item ++ ',' :: prettyItems level (next :: rest))

def prettyMembers (level : Nat) : List (JsonText × Json) → List Char
  | [] => []
  | [(key, value)] => lineBreak level ++ (quoteText key ++ ':' :: ' ' :: prettyAt level value)
  | (key, value) :: next :: rest =>
    lineBreak level ++ (quoteText key ++ ':' :: ' ' ::
      (prettyAt level value ++ ',' :: prettyMembers level (next :: rest)))

end

def pretty (json : Json) : List Char := prettyAt 0 json

end PolicyLevers.Json
