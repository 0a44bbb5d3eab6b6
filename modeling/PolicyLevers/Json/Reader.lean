import PolicyLevers.Json.Value

/-!
# Reading JSON

A recursive reader over the characters of a document.  Every nested call works on fewer characters,
so twice their number bounds the nesting of calls.
-/

namespace PolicyLevers.Json

set_option autoImplicit false

def isBlank (c : Char) : Bool := c = ' ' || c = '\n' || c = '\t' || c = '\r'

def skipBlanks (input : List Char) : List Char := input.dropWhile isBlank

/-- One element of a string as written: a character, or the code unit of a `\u` escape. -/
inductive Mark where
  | char (c : Char)
  | unit (code : Nat)
  deriving DecidableEq, Repr

def hexDigit? (c : Char) : Option Nat :=
  if c.isDigit then some (c.toNat - '0'.toNat)
  else if 'a' ≤ c && c ≤ 'f' then some (c.toNat - 'a'.toNat + 10)
  else if 'A' ≤ c && c ≤ 'F' then some (c.toNat - 'A'.toNat + 10)
  else none

def codeUnit? (a b c d : Char) : Option Nat := do
  pure ((((← hexDigit? a) * 16 + (← hexDigit? b)) * 16 + (← hexDigit? c)) * 16 + (← hexDigit? d))

def simpleEscape? : Char → Option Char
  | '"' => some '"'
  | '\\' => some '\\'
  | '/' => some '/'
  | 'b' => some '\x08'
  | 'f' => some '\x0c'
  | 'n' => some '\n'
  | 'r' => some '\r'
  | 't' => some '\t'
  | _ => none

def readMarks : List Char → Option (List Mark × List Char)
  | '"' :: rest => some ([], rest)
  | '\\' :: 'u' :: a :: b :: c :: d :: rest => do
    let code ← codeUnit? a b c d
    let (marks, rest) ← readMarks rest
    pure (.unit code :: marks, rest)
  | '\\' :: letter :: rest => do
    let c ← simpleEscape? letter
    let (marks, rest) ← readMarks rest
    pure (.char c :: marks, rest)
  | c :: rest =>
    if c.toNat < 0x20 || c = '\\' then none
    else (readMarks rest).map (fun (marks, rest) => (.char c :: marks, rest))
  | [] => none

def isHighSurrogate (code : Nat) : Bool := 0xD800 ≤ code && code < 0xDC00

def isLowSurrogate (code : Nat) : Bool := 0xDC00 ≤ code && code < 0xE000

/-- The characters of marks; nothing if an escape of a surrogate is not part of a pair. -/
def joinMarks : List Mark → Option (List Char)
  | [] => some []
  | .char c :: rest => (joinMarks rest).map (c :: ·)
  | .unit high :: .unit low :: rest =>
    if isHighSurrogate high then
      if isLowSurrogate low then
        let code := 0x10000 + (high - 0xD800) * 0x400 + (low - 0xDC00)
        (joinMarks rest).map (Char.ofNat code :: ·)
      else none
    else if isLowSurrogate high then none
    else (joinMarks (.unit low :: rest)).map (Char.ofNat high :: ·)
  | .unit code :: rest =>
    if isHighSurrogate code || isLowSurrogate code then none
    else (joinMarks rest).map (Char.ofNat code :: ·)

def readText (input : List Char) : Option (JsonText × List Char) :=
  (readMarks input).map (fun (marks, rest) => ((joinMarks marks).map String.ofList, rest))

def readDigits (input : List Char) : Option (List Char × List Char) :=
  if (input.takeWhile Char.isDigit).isEmpty then none
  else some (input.takeWhile Char.isDigit, input.dropWhile Char.isDigit)

/-- The digits before the point: a lone zero, or digits that do not start with one. -/
def readWhole : List Char → Option (List Char × List Char)
  | '0' :: rest => if rest.head?.any Char.isDigit then none else some (['0'], rest)
  | input => readDigits input

def readFraction : List Char → Option (List Char × List Char)
  | '.' :: rest => (readDigits rest).map (fun (digits, rest) => ('.' :: digits, rest))
  | input => some ([], input)

def readExponent : List Char → Option (List Char × List Char)
  | mark :: rest =>
    if mark = 'e' || mark = 'E' then
      match rest with
      | '+' :: after => (readDigits after).map (fun (digits, rest) => (mark :: '+' :: digits, rest))
      | '-' :: after => (readDigits after).map (fun (digits, rest) => (mark :: '-' :: digits, rest))
      | after => (readDigits after).map (fun (digits, rest) => (mark :: digits, rest))
    else some ([], mark :: rest)
  | [] => some ([], [])

def readUnsigned (input : List Char) : Option (List Char × List Char) := do
  let (whole, rest) ← readWhole input
  let (fraction, rest) ← readFraction rest
  let (exponent, rest) ← readExponent rest
  pure (whole ++ fraction ++ exponent, rest)

def readNumber : List Char → Option (List Char × List Char)
  | '-' :: rest => (readUnsigned rest).map (fun (digits, rest) => ('-' :: digits, rest))
  | input => readUnsigned input

mutual

def readValue : Nat → List Char → Option (Json × List Char)
  | 0, _ => none
  | limit + 1, input =>
    match skipBlanks input with
    | 'n' :: 'u' :: 'l' :: 'l' :: rest => some (.null, rest)
    | 't' :: 'r' :: 'u' :: 'e' :: rest => some (.bool true, rest)
    | 'f' :: 'a' :: 'l' :: 's' :: 'e' :: rest => some (.bool false, rest)
    | '"' :: rest => (readText rest).map (fun (content, rest) => (.text content, rest))
    | '[' :: rest =>
      match skipBlanks rest with
      | ']' :: rest => some (.array [], rest)
      | rest => (readItems limit rest).map (fun (items, rest) => (.array items, rest))
    | '\x7b' :: rest =>
      match skipBlanks rest with
      | '\x7d' :: rest => some (.object [], rest)
      | rest => (readMembers limit rest).map (fun (members, rest) => (.object members, rest))
    | input => (readNumber input).map (fun (digits, rest) => (.number digits, rest))

def readItems : Nat → List Char → Option (List Json × List Char)
  | 0, _ => none
  | limit + 1, input => do
    let (item, rest) ← readValue limit input
    match skipBlanks rest with
    | ',' :: rest =>
      let (items, rest) ← readItems limit rest
      pure (item :: items, rest)
    | ']' :: rest => pure ([item], rest)
    | _ => none

def readMembers : Nat → List Char → Option (List (JsonText × Json) × List Char)
  | 0, _ => none
  | limit + 1, input => do
    let (key, rest) ←
      match skipBlanks input with
      | '"' :: rest => readText rest
      | _ => none
    let (value, rest) ←
      match skipBlanks rest with
      | ':' :: rest => readValue limit rest
      | _ => none
    match skipBlanks rest with
    | ',' :: rest =>
      let (members, rest) ← readMembers limit rest
      pure ((key, value) :: members, rest)
    | '\x7d' :: rest => pure ([(key, value)], rest)
    | _ => none

end

def read (input : List Char) : Option Json :=
  match readValue (2 * input.length + 2) input with
  | some (value, rest) => if (skipBlanks rest).isEmpty then some value else none
  | none => none

end PolicyLevers.Json
