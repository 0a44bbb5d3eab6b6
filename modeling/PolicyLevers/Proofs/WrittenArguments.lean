import PolicyLevers.CommandLine.Arguments

/-!
# Arguments as they are written

The parts of a command line can be written in more than one way.  Arguments are taken exactly if they are
written as parts that are accepted one after another.
-/

namespace PolicyLevers.CommandLine

set_option autoImplicit false

/-- How parts are written, with options that have names and no letters. -/
inductive Written (names : List String) : List String → List Argument → Prop
  | nothing : Written names [] []
  | operand {text : String} {rest : List String} {parts : List Argument} :
      looksLikeOption text = false → Written names rest parts →
      Written names (text :: rest) (.operand text :: parts)
  | joined {name value : String} {rest : List String} {parts : List Argument} :
      name ∈ names → Written names rest parts →
      Written names (("--" ++ name ++ "=" ++ value) :: rest) (.option name value :: parts)
  | apart {name value : String} {rest : List String} {parts : List Argument} :
      name ∈ names → looksLikeOption value = false → Written names rest parts →
      Written names (("--" ++ name) :: value :: rest) (.option name value :: parts)
  /-- Behind two hyphens there are only operands. -/
  | operands (rest : List String) : Written names ("--" :: rest) (rest.map .operand)

theorem written_options {names arguments : List String} {parts : List Argument}
    (written : Written names arguments parts) :
    ∀ name value, Argument.option name value ∈ parts → name ∈ names := by
  induction written with
  | nothing => simp
  | operand _ _ induction => simpa using induction
  | joined member _ induction =>
      rintro name value (_ | ⟨_, inside⟩)
      · exact member
      · exact induction name value inside
  | apart member _ _ induction =>
      rintro name value (_ | ⟨_, inside⟩)
      · exact member
      · exact induction name value inside
  | operands rest => simp

/-! ## Options by their names -/

variable {names : List String} {name : String}

def plainOptions (names : List String) : List OptionName := names.map (fun long => ⟨long, none⟩)

/-- The names of options can be told from each other and from the arguments that have a meaning of their own. -/
def Nameable (name : String) : Prop := name ≠ "" ∧ name ≠ "help" ∧ '=' ∉ name.toList

theorem find_plain_option (names : List String) (name : String) :
    (plainOptions names).find? (fun option => option.long = name) =
      if name ∈ names then some ⟨name, none⟩ else none := by
  induction names with
  | nil => rfl
  | cons head names induction => grind [plainOptions]

theorem cut_equals_other {c : Char} (other : c ≠ '=') (rest : List Char) :
    cutEquals (c :: rest) = (c :: (cutEquals rest).1, (cutEquals rest).2) := by
  rw [cutEquals]
  exact other

theorem cut_equals_join (text : List Char) :
    (cutEquals text).1 ++ (cutEquals text).2.elim [] (List.cons '=') = text := by
  induction text with
  | nil => rfl
  | cons c rest induction =>
      by_cases same : c = '='
      · rw [same]
        rfl
      · rw [cut_equals_other same, List.cons_append, induction]

theorem cut_equals_behind {name : List Char} (free : '=' ∉ name) (rest : List Char) :
    cutEquals (name ++ rest) = (name ++ (cutEquals rest).1, (cutEquals rest).2) := by
  induction name with
  | nil => rfl
  | cons c name induction =>
      simp only [List.mem_cons, not_or] at free
      rw [List.cons_append, cut_equals_other (Ne.symm free.1), induction free.2]
      rfl

theorem shape_of_hyphens {text : String} {rest : List Char} (visible : rest ≠ [])
    (written : text.toList = '-' :: '-' :: rest) :
    Shape.of text = .long (cutEquals rest).1 (cutEquals rest).2 := by
  unfold Shape.of
  rw [written]
  cases rest with
  | nil => exact absurd rfl visible
  | cons c rest => rfl

theorem long_shape_hyphens {text : String} {name : List Char} {value : Option (List Char)}
    (shape : Shape.of text = .long name value) :
    text.toList = '-' :: '-' :: (name ++ value.elim [] (List.cons '=')) := by
  unfold Shape.of at shape
  split at shape <;> cases shape
  next rest written => rw [written, cut_equals_join]

theorem separator_shape {text : String} (shape : Shape.of text = .separator) : text = "--" := by
  unfold Shape.of at shape
  split at shape <;> cases shape
  next written => exact String.toList_injective written

theorem read_option (named : Nameable name) (member : name ∈ names) {text : String} {behind : List Char}
    (written : text.toList = '-' :: '-' :: (name.toList ++ behind)) (ends : (cutEquals behind).1 = []) :
    read (plainOptions names) text =
      match (cutEquals behind).2 with
      | some value => .argument (.option name (String.ofList value))
      | none => .needsValue name := by
  obtain ⟨visible, noHelp, free⟩ := named
  have some : name.toList ++ behind ≠ [] := by simp [visible]
  unfold read
  rw [shape_of_hyphens some written, cut_equals_behind free, ends, List.append_nil]
  dsimp only
  rw [String.ofList_toList, if_neg noHelp, find_plain_option, if_pos member]
  cases (cutEquals behind).2 <;> rfl

theorem read_joined (named : Nameable name) (member : name ∈ names) (value : String) :
    read (plainOptions names) ("--" ++ name ++ "=" ++ value) = .argument (.option name value) := by
  have written : ("--" ++ name ++ "=" ++ value).toList = '-' :: '-' :: (name.toList ++ '=' :: value.toList) := by
    simp
  rw [read_option named member written rfl]
  simp [cutEquals]

theorem read_apart (named : Nameable name) (member : name ∈ names) :
    read (plainOptions names) ("--" ++ name) = .needsValue name := by
  have written : ("--" ++ name).toList = '-' :: '-' :: (name.toList ++ []) := by simp
  rw [read_option named member written rfl]
  rfl

theorem read_operand {text : String} (plain : looksLikeOption text = false) :
    read (plainOptions names) text = .argument (.operand text) := by
  unfold looksLikeOption at plain
  unfold read
  cases shape : Shape.of text with
  | plain => rfl
  | _ => simp [shape] at plain

/-! ## Arguments by their parts -/

inductive ReadAs (names : List String) (text : String) : Reading → Prop
  | operand : looksLikeOption text = false → ReadAs names text (.argument (.operand text))
  | joined {name value : String} : name ∈ names → text = "--" ++ name ++ "=" ++ value →
      ReadAs names text (.argument (.option name value))
  | apart {name : String} : name ∈ names → text = "--" ++ name → ReadAs names text (.needsValue name)
  | separator : text = "--" → ReadAs names text .separator
  | refusal (refusal : Refusal) : ReadAs names text (.refusal refusal)

theorem read_as_written (names : List String) (text : String) :
    ReadAs names text (read (plainOptions names) text) := by
  unfold read
  cases shape : Shape.of text with
  | separator => exact .separator (separator_shape shape)
  | plain => exact .operand (by rw [looksLikeOption, shape])
  | letters letter rest =>
      dsimp only
      split
      · exact .refusal _
      · have none : (plainOptions names).find? (fun option => option.letter = some letter) = none := by
          simp [plainOptions]
        rw [none]
        exact .refusal _
  | long name value =>
      have written := long_shape_hyphens shape
      dsimp only
      split
      · exact .refusal _
      · rw [find_plain_option]
        by_cases member : String.ofList name ∈ names
        · rw [if_pos member]
          cases value with
          | some value => exact .joined member (String.toList_injective (by simp [written]))
          | none => exact .apart member (String.toList_injective (by simp [written]))
        · rw [if_neg member]
          exact .refusal _

section Taken

variable {σ : Type} {accept : σ → Argument → Option σ} {state result : σ}

theorem operands_taken (arguments : List String) :
    takeOperands accept state arguments = .ok result ↔
      (arguments.map Argument.operand).foldlM accept state = some result := by
  induction arguments generalizing state with
  | nil => simp [takeOperands]
  | cons argument rest induction =>
      rw [takeOperands, List.map_cons, List.foldlM_cons]
      cases accept state (.operand argument) with
      | none => simp
      | some next => exact induction

/-- Arguments are taken if they can be read as parts that are accepted one after another. -/
theorem taken_as_written {arguments : List String}
    (taken : takeArguments (plainOptions names) accept state arguments = .ok result) :
    ∃ parts, Written names arguments parts ∧ parts.foldlM accept state = some result := by
  fun_induction takeArguments (plainOptions names) accept state arguments with
  | case1 state =>
      cases taken
      exact ⟨[], .nothing, rfl⟩
  | case3 state argument rest separator =>
      have seen := read_as_written names argument
      rw [separator] at seen
      cases seen with
      | separator same => exact ⟨_, same ▸ .operands rest, (operands_taken rest).mp taken⟩
  | case5 state argument rest part known next accepted induction =>
      obtain ⟨parts, written, others⟩ := induction taken
      have whole : (part :: parts).foldlM accept state = some result := by
        rw [List.foldlM_cons, accepted]
        exact others
      have seen := read_as_written names argument
      rw [known] at seen
      cases seen with
      | operand plain => exact ⟨_, .operand plain written, whole⟩
      | joined member same => exact ⟨_, same ▸ .joined member written, whole⟩
  | case9 state argument long open_ended value rest plain next accepted induction =>
      obtain ⟨parts, written, others⟩ := induction taken
      have whole : (.option long value :: parts).foldlM accept state = some result := by
        rw [List.foldlM_cons, accepted]
        exact others
      have seen := read_as_written names argument
      rw [open_ended] at seen
      cases seen with
      | apart member same =>
          exact ⟨_, same ▸ .apart member (Bool.eq_false_iff.mpr plain) written, whole⟩
  | _ => cases taken

theorem written_are_taken {arguments : List String} {parts : List Argument}
    (nameable : ∀ name ∈ names, Nameable name) (written : Written names arguments parts)
    (accepted : parts.foldlM accept state = some result) :
    takeArguments (plainOptions names) accept state arguments = .ok result := by
  induction written generalizing state with
  | nothing =>
      cases accepted
      rfl
  | operand plain _ induction =>
      obtain ⟨next, first, others⟩ := Option.bind_eq_some_iff.mp accepted
      simp only [takeArguments, read_operand plain, first]
      exact induction others
  | joined member _ induction =>
      obtain ⟨next, first, others⟩ := Option.bind_eq_some_iff.mp accepted
      simp only [takeArguments, read_joined (nameable _ member) member, first]
      exact induction others
  | apart member plain _ induction =>
      obtain ⟨next, first, others⟩ := Option.bind_eq_some_iff.mp accepted
      simp only [takeArguments, read_apart (nameable _ member) member, plain, first]
      exact induction others
  | operands rest =>
      rw [takeArguments]
      exact (operands_taken rest).mpr accepted

end Taken

end PolicyLevers.CommandLine
