import PolicyLevers.Script.Parser
import PolicyLevers.Script.Phrase

/-!
# The grammar of scripts

A script is a sequence of statements, each closed by a semicolon.  Expressions are numeric;
comparisons occur only as the condition of `a if left < right else b`.  Expressions nest inside one
another, and each level of nesting takes a token at least, so the grammar is built level by level up
to the number of tokens.

There is no untyped tree between the rules and what reads them: each rule finds a form that has all its
parts, each of the kind that the rule names.  A part that is missing, or of another kind, cannot be
built, so the faults "missing expected pair in rule" and "unexpected rule in expression", which a
reader of an untyped tree has to provide for, have no case here.
-/

namespace PolicyLevers.Script.Grammar

set_option autoImplicit false

open PolicyLevers.Script.Parser

/-- Words that cannot start an identifier. -/
def keywords : List String :=
  ["var", "limit", "to", "distribute", "across", "by", "proportionally", "linearly", "lifecycle",
    "of", "change", "over", "draw", "uniformly", "normally", "from", "mean", "std", "sum", "product",
    "average", "repeats", "inspect", "if", "else"]

def leadingWord : Parser (List Char) :=
  token (fun lexeme =>
    match lexeme.token with
    | .word text => if keywords.contains (String.ofList text) then none else some text
    | _ => none)

def touchingWord : Parser (List Char) :=
  token (fun lexeme =>
    match lexeme.gap, lexeme.token with
    | .none, .word text => some text
    | _, _ => none)

/-- A period and a word, both without a gap in front. -/
def furtherWord : Parser (List Char) := do
  touching '.'
  let word ← touchingWord
  pure ('.' :: word)

/-- A dotted identifier: words joined by periods without gaps, the first of them no keyword. -/
def identifier : Parser String :=
  named .identifier do
    let first ← leadingWord
    let others ← many furtherWord
    pure (String.ofList (first ++ others.flatten))

def sign : Parser Char :=
  named .sign (orElse (symbol '+' >>= fun _ => pure '+') (symbol '-' >>= fun _ => pure '-'))

def digits : Parser (Gap × List Char) :=
  named .digits (token (fun lexeme =>
    match lexeme.token with
    | .digits text => some (lexeme.gap, text)
    | _ => none))

def number : Parser Operand :=
  named .number do
    let start ← ahead
    let signFound ← optional sign
    let (gap, text) ← digits
    let left ← ahead
    pure (.number ⟨start, left, false⟩ (signFound.map (fun c => (c, gap))) text)

def operatorSign : BinaryOp → Char
  | .add => '+'
  | .sub => '-'
  | .mul => '*'
  | .div => '/'
  | .pow => '^'

def operator : Parser BinaryOp :=
  firstOf ([BinaryOp.add, .sub, .mul, .div, .pow].map (fun op =>
    named (.operator op) (symbol (operatorSign op) >>= fun _ => pure op)))

/-- The first character of a comparison, and whether an equals sign touches it. -/
def comparisonSign : Comparison → Char × Bool
  | .eq => ('=', true)
  | .neq => ('!', true)
  | .lte => ('<', true)
  | .gte => ('>', true)
  | .lt => ('<', false)
  | .gt => ('>', false)

/-- A comparison; the longer ones are looked for first. -/
def comparison : Parser Comparison :=
  firstOf ([Comparison.eq, .neq, .lte, .gte, .lt, .gt].map (fun test =>
    named (.comparison test) do
      symbol (comparisonSign test).1
      if (comparisonSign test).2 then touching '='
      pure test))

/-- Things separated by commas, one at least, with an optional comma after the last. -/
def listOf {α : Type} (item : Parser α) : Parser (List α) := do
  let first ← item
  let others ← many (symbol ',' >>= fun _ => item)
  let _ ← optional (symbol ',')
  pure (first :: others)

def lifecycle : Parser Operand :=
  named .lifecycle do
    let start ← ahead
    keyword "lifecycle"
    keyword "of"
    symbol '['
    let paths ← listOf identifier
    symbol ']'
    let left ← ahead
    pure (.lifecycle ⟨start, left, false⟩ paths)

def chain (operand : Parser Operand) : Parser Chain :=
  named .arithmetic do
    let first ← operand
    let others ← many (do
      let op ← operator
      let next ← operand
      pure (op, next))
    pure (.ofList first others)

def uniform (operand : Parser Operand) : Parser Operand :=
  named .uniformDraw do
    let start ← ahead
    keyword "draw"
    keyword "uniformly"
    keyword "from"
    let low ← chain operand
    keyword "to"
    let high ← chain operand
    let left ← ahead
    pure (.uniform ⟨start, left, high.extent.spaced⟩ low high)

def normal (operand : Parser Operand) : Parser Operand :=
  named .normalDraw do
    let start ← ahead
    keyword "draw"
    keyword "normally"
    keyword "from"
    keyword "mean"
    keyword "of"
    let mean ← chain operand
    keyword "std"
    keyword "of"
    let deviation ← chain operand
    let left ← ahead
    pure (.normal ⟨start, left, deviation.extent.spaced⟩ mean deviation)

def reducer : Parser Reducer :=
  firstOf [
    keyword "sum" >>= fun _ => pure .sum,
    keyword "product" >>= fun _ => pure .product,
    keyword "average" >>= fun _ => pure .average]

def repetition (operand : Parser Operand) (phrase : Parser Phrase) : Parser Operand :=
  named .repetition do
    let start ← ahead
    let reduce ← reducer
    let count ← operand
    keyword "repeats"
    keyword "of"
    let body ← phrase
    let left ← ahead
    pure (.repeated ⟨start, left, true⟩ reduce count body)

def group (phrase : Parser Phrase) : Parser Operand :=
  named .group do
    let start ← ahead
    symbol '('
    let body ← phrase
    symbol ')'
    let left ← ahead
    pure (.group ⟨start, left, false⟩ body)

def path : Parser Operand := do
  let start ← ahead
  let text ← identifier
  let left ← ahead
  pure (.path ⟨start, left, false⟩ text)

def operandOf (operand : Parser Operand) (phrase : Parser Phrase) : Parser Operand :=
  firstOf [number, lifecycle, uniform operand, normal operand, repetition operand phrase,
    group phrase, path]

def condition (operand : Parser Operand) : Parser (Chain × Comparison × Chain) :=
  named .condition do
    let left ← chain operand
    let test ← comparison
    let right ← chain operand
    pure (left, test, right)

def conditional (operand : Parser Operand) (phrase : Parser Phrase) :
    Parser ((Chain × Comparison × Chain) × Phrase) :=
  named .conditional do
    keyword "if"
    let test ← condition operand
    keyword "else"
    let alternative ← phrase
    pure (test, alternative)

def phraseOf (operand : Parser Operand) (phrase : Parser Phrase) : Parser Phrase :=
  named .expression do
    let value ← chain operand
    match ← optional (conditional operand phrase) with
    | none => pure (.plain value)
    | some ((left, test, right), alternative) =>
      pure (.conditional value left test right alternative)

structure Level where
  operand : Parser Operand
  phrase : Parser Phrase

def level : Nat → Level
  | 0 => ⟨fail, fail⟩
  | depth + 1 =>
    let inner := level depth
    let operand := operandOf inner.operand inner.phrase
    ⟨operand, phraseOf operand inner.phrase⟩

def definition (parsers : Level) : Parser StatementForm :=
  named .definition do
    keyword "var"
    let name ← identifier
    symbol '='
    let value ← parsers.phrase
    pure (.definition name value)

def assignment (parsers : Level) : Parser StatementForm :=
  named .assignment do
    let target ← identifier
    symbol '='
    let value ← parsers.phrase
    pure (.assignment target value)

def limit (parsers : Level) : Parser StatementForm :=
  named .limit do
    keyword "limit"
    let target ← identifier
    keyword "to"
    symbol '['
    let lower ← optional (named .lowerBound parsers.phrase)
    symbol ','
    let upper ← optional (named .upperBound parsers.phrase)
    symbol ']'
    pure (.limit target lower upper)

def target (parsers : Level) : Parser (String × Option Chain) :=
  named .target do
    let place ← identifier
    let weight ← optional (named .weight (keyword "by" >>= fun _ => chain parsers.operand))
    pure (place, weight)

def split : Parser Split :=
  firstOf [
    keyword "proportionally" >>= fun _ => pure .proportional,
    keyword "linearly" >>= fun _ => pure .linear]

def distribute (parsers : Level) : Parser StatementForm :=
  named .distribution do
    keyword "distribute"
    let value ← parsers.phrase
    keyword "across"
    symbol '['
    let targets ← listOf (target parsers)
    symbol ']'
    let how ← split
    pure (.distribute value targets how)

def change (parsers : Level) : Parser StatementForm :=
  named .change do
    keyword "change"
    let place ← identifier
    keyword "by"
    let delta ← chain parsers.operand
    keyword "over"
    let start ← chain parsers.operand
    keyword "to"
    let finish ← chain parsers.operand
    pure (.change place delta start finish)

def inspect (parsers : Level) : Parser StatementForm :=
  named .inspection do
    keyword "inspect"
    let (text, value) ← withText parsers.phrase
    pure (.inspect (String.ofList text) value)

/-- The blanks behind the last part of a statement belong to it if that part is an expression. -/
def isSpaced : StatementForm → Bool
  | .definition _ _ => true
  | .assignment _ _ => true
  | .limit _ _ _ => false
  | .distribute _ _ _ => false
  | .change _ _ _ finish => finish.extent.spaced
  | .inspect _ _ => true

def statement (parsers : Level) : Parser WrittenStatement := do
  let start ← ahead
  let form ← firstOf [definition parsers, limit parsers, distribute parsers, change parsers,
    inspect parsers, assignment parsers]
  let left ← ahead
  symbol ';'
  pure ⟨⟨start, left, isSpaced form⟩, form⟩

def script (parsers : Level) : Parser (List WrittenStatement) :=
  namedFromGap .script do
    let statements ← many (statement parsers)
    endOfInput
    pure statements

/-- Reads all tokens of a script.  Nesting cannot be deeper than there are tokens. -/
def read (tokens : List Lexeme) : Reply (List WrittenStatement) :=
  script (level (tokens.length + 1)) tokens

end PolicyLevers.Script.Grammar
