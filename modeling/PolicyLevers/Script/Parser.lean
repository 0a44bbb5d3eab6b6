import PolicyLevers.Script.Token
import PolicyLevers.Script.Expectation

/-!
# Parsers over tokens

A parser reads tokens from the front of a list and, found or not, reports what it looked for in vain.
Of several reports the one that reached furthest counts; reports from the same place are put together.
A named part of the grammar that fails stands in its report for the smaller parts that failed at its
own first token, unless that was exactly one.
-/

namespace PolicyLevers.Script

set_option autoImplicit false

/-- What was looked for in vain at the furthest place reached; the place is given by the number of
tokens ahead of it.  With nothing looked for the place is of no account. -/
structure Missed where
  ahead : Nat
  expected : List Expectation
  deriving DecidableEq, Repr

namespace Missed

def none : Missed := ⟨0, []⟩

/-- The report that reached further; from one place, both together. -/
def join (before after : Missed) : Missed :=
  if after.expected.isEmpty then before
  else if before.expected.isEmpty then after
  else if after.ahead < before.ahead then after
  else if before.ahead < after.ahead then before
  else ⟨before.ahead, before.expected ++ after.expected⟩

def rename (missed : Missed) (ahead : Nat) (part : Expectation) : Missed :=
  match missed.expected with
  | [] => ⟨ahead, [part]⟩
  | [_] => missed
  | _ => if missed.ahead = ahead then ⟨ahead, [part]⟩ else missed

end Missed

/-- The outcome of a parser: a value and the tokens behind it, if it succeeded. -/
structure Reply (α : Type) where
  outcome : Option (α × List Lexeme)
  missed : Missed

def Parser (α : Type) : Type := List Lexeme → Reply α

namespace Parser

variable {α β : Type}

def fail : Parser α := fun _ => ⟨none, .none⟩

def succeed (value : α) : Parser α := fun tokens => ⟨some (value, tokens), .none⟩

def andThen (first : Parser α) (next : α → Parser β) : Parser β := fun tokens =>
  let reply := first tokens
  match reply.outcome with
  | none => ⟨none, reply.missed⟩
  | some (value, rest) =>
    let second := next value rest
    ⟨second.outcome, reply.missed.join second.missed⟩

instance : Monad Parser where
  pure := succeed
  bind := andThen

def orElse (first second : Parser α) : Parser α := fun tokens =>
  let reply := first tokens
  match reply.outcome with
  | some _ => reply
  | none =>
    let other := second tokens
    ⟨other.outcome, reply.missed.join other.missed⟩

def firstOf (choices : List (Parser α)) : Parser α := choices.foldr orElse fail

def optional (parser : Parser α) : Parser (Option α) := fun tokens =>
  let reply := parser tokens
  match reply.outcome with
  | some (value, rest) => ⟨some (some value, rest), reply.missed⟩
  | none => ⟨some (none, tokens), reply.missed⟩

def upTo (parser : Parser α) : Nat → Parser (List α)
  | 0 => succeed []
  | count + 1 => fun tokens =>
    let reply := parser tokens
    match reply.outcome with
    | none => ⟨some ([], tokens), reply.missed⟩
    | some (value, rest) =>
      let more := upTo parser count rest
      ⟨more.outcome.map (fun (values, rest) => (value :: values, rest)), reply.missed.join more.missed⟩

/-- Reads a thing as often as it is found.  Each time takes a token at least, and once more it is
looked for in vain. -/
def many (parser : Parser α) : Parser (List α) := fun tokens => upTo parser (tokens.length + 1) tokens

def named (part : Expectation) (parser : Parser α) : Parser α := fun tokens =>
  let reply := parser tokens
  match reply.outcome with
  | some _ => reply
  | none => ⟨none, reply.missed.rename tokens.length part⟩

/-- A part of the grammar that begins with the blanks in front of its first token.  Its name stands for
no smaller part behind blanks, because that part failed later than this one begins. -/
def namedFromGap (part : Expectation) (parser : Parser α) : Parser α := fun tokens =>
  if tokens.head?.all (fun lexeme => lexeme.gap = .none) then named part parser tokens
  else parser tokens

def ahead : Parser Nat := fun tokens => ⟨some (tokens.length, tokens), .none⟩

/-- Reads a thing together with the characters of its tokens. -/
def withText (parser : Parser α) : Parser (List Char × α) := fun tokens =>
  let reply := parser tokens
  ⟨reply.outcome.map (fun (value, rest) =>
    (((tokens.take (tokens.length - rest.length)).flatMap (fun lexeme => lexeme.token.text), value), rest)),
    reply.missed⟩

def token (read : Lexeme → Option α) : Parser α
  | [] => ⟨none, .none⟩
  | lexeme :: rest => ⟨(read lexeme).map (fun value => (value, rest)), .none⟩

def symbol (c : Char) : Parser Unit :=
  token (fun lexeme => if lexeme.token = .symbol c then some () else none)

/-- Reads a character that touches the token before it. -/
def touching (c : Char) : Parser Unit :=
  token (fun lexeme => if lexeme.gap = .none ∧ lexeme.token = .symbol c then some () else none)

def keyword (spelling : String) : Parser Unit :=
  named (.keyword spelling)
    (token (fun lexeme => if lexeme.token = .word spelling.toList then some () else none))

def endOfInput : Parser Unit :=
  named .endOfInput (fun tokens => ⟨if tokens.isEmpty then some ((), []) else none, .none⟩)

end Parser

end PolicyLevers.Script
