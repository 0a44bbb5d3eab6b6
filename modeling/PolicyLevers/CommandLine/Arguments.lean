/-!
# Command-line arguments

Arguments are options with values, and operands.  An option is written by its long name or its letter,
its value behind an equals sign, directly behind the letter, or as the next argument, which then must
not look like an option.  After two hyphens every argument is an operand.
-/

namespace PolicyLevers.CommandLine

set_option autoImplicit false

inductive Refusal where
  | help
  | invalid
  deriving DecidableEq, Repr

structure OptionName where
  long : String
  letter : Option Char := none
  deriving DecidableEq, Repr

inductive Argument where
  | option (long value : String)
  | operand (value : String)
  deriving DecidableEq, Repr

inductive Shape where
  | separator
  /-- Two hyphens, a name, and perhaps a value behind an equals sign. -/
  | long (name : List Char) (value : Option (List Char))
  | letters (letter : Char) (rest : List Char)
  | plain

def cutEquals : List Char → List Char × Option (List Char)
  | [] => ([], none)
  | '=' :: rest => ([], some rest)
  | c :: rest =>
    let (before, after) := cutEquals rest
    (c :: before, after)

def Shape.of (argument : String) : Shape :=
  match argument.toList with
  | ['-', '-'] => .separator
  | '-' :: '-' :: rest =>
    let (name, value) := cutEquals rest
    .long name value
  | '-' :: letter :: rest => .letters letter rest
  | _ => .plain

/-- Cannot be the value of the option before it. -/
def looksLikeOption (argument : String) : Bool :=
  match Shape.of argument with
  | .plain => false
  | _ => true

def attachedValue : List Char → Option String
  | [] => none
  | '=' :: rest => some (String.ofList rest)
  | rest => some (String.ofList rest)

/-- What one argument is, before its value is known. -/
inductive Reading where
  | argument (argument : Argument)
  /-- An option whose value is the next argument. -/
  | needsValue (long : String)
  | separator
  | refusal (refusal : Refusal)

def read (options : List OptionName) (argument : String) : Reading :=
  match Shape.of argument with
  | .separator => .separator
  | .plain => .argument (.operand argument)
  | .long name value =>
    let name := String.ofList name
    if name = "help" then .refusal (if value.isNone then .help else .invalid)
    else
      match options.find? (fun option => option.long = name), value with
      | none, _ => .refusal .invalid
      | some option, some value => .argument (.option option.long (String.ofList value))
      | some option, none => .needsValue option.long
  | .letters letter rest =>
    if letter = 'h' then .refusal .help
    else
      match options.find? (fun option => option.letter = some letter), attachedValue rest with
      | none, _ => .refusal .invalid
      | some option, some value => .argument (.option option.long value)
      | some option, none => .needsValue option.long

def takeOperands {σ : Type} (accept : σ → Argument → Option σ) (state : σ) :
    List String → Except Refusal σ
  | [] => .ok state
  | argument :: rest =>
    match accept state (.operand argument) with
    | none => .error .invalid
    | some state => takeOperands accept state rest

/-- Takes arguments one after another, up to the first that is refused. -/
def takeArguments {σ : Type} (options : List OptionName) (accept : σ → Argument → Option σ)
    (state : σ) : List String → Except Refusal σ
  | [] => .ok state
  | argument :: rest =>
    match read options argument with
    | .refusal refusal => .error refusal
    | .separator => takeOperands accept state rest
    | .argument argument =>
      match accept state argument with
      | none => .error .invalid
      | some state => takeArguments options accept state rest
    | .needsValue long =>
      match rest with
      | [] => .error .invalid
      | value :: rest =>
        if looksLikeOption value then .error .invalid
        else
          match accept state (.option long value) with
          | none => .error .invalid
          | some state => takeArguments options accept state rest

end PolicyLevers.CommandLine
