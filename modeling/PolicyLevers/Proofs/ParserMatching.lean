import Mathlib.Data.List.Forall2
import PolicyLevers.Proofs.ParserRules

/-!
# Parsers on two lists of tokens

A parser of the grammar's parts sees what its tokens are, whether they touch, no semicolon, and no bracket
that closes without having been opened.  So on a list with other gaps, or with further tokens put behind a
semicolon or such a bracket, it finds what corresponds and leaves the corresponding tokens; the places it
notes move, because they count the tokens ahead.  `Matches` says so
of two parsers, the second of which may be built for deeper nesting, and there is one rule for each way of
putting parsers together.
-/

namespace PolicyLevers.Script.Parser

set_option autoImplicit false

variable {α β γ δ : Type}

/-! ## Outcomes -/

theorem bind_outcome (first : Parser α) (next : α → Parser β) (tokens : List Lexeme) :
    ((first >>= next) tokens).outcome =
      (first tokens).outcome.bind (fun (value, rest) => (next value rest).outcome) := by
  change (andThen first next tokens).outcome = _
  unfold andThen
  cases found : (first tokens).outcome <;> simp [found]

theorem bind_reads_iff {first : Parser α} {next : α → Parser β} {tokens rest : List Lexeme}
    {result : β} :
    (first >>= next).Reads tokens result rest ↔
      ∃ value middle, first.Reads tokens value middle ∧ (next value).Reads middle result rest := by
  unfold Reads
  rw [bind_outcome, Option.bind_eq_some_iff]
  simp

theorem or_else_outcome (first second : Parser α) (tokens : List Lexeme) :
    (orElse first second tokens).outcome =
      (first tokens).outcome.or (second tokens).outcome := by
  unfold orElse
  cases found : (first tokens).outcome <;> simp [found]

theorem optional_outcome (parser : Parser α) (tokens : List Lexeme) :
    (optional parser tokens).outcome =
      some ((parser tokens).outcome.elim (none, tokens) (fun (value, rest) => (some value, rest))) := by
  unfold optional
  cases found : (parser tokens).outcome <;> simp [found]

theorem up_to_outcome (parser : Parser α) (count : Nat) (tokens : List Lexeme) :
    (upTo parser (count + 1) tokens).outcome =
      (parser tokens).outcome.elim (some ([], tokens)) (fun (value, rest) =>
        (upTo parser count rest).outcome.map (fun (values, rest) => (value :: values, rest))) := by
  rw [upTo]
  cases found : (parser tokens).outcome <;> simp [found]

theorem with_text_outcome (parser : Parser α) (tokens : List Lexeme) :
    (withText parser tokens).outcome = (parser tokens).outcome.map (fun (value, rest) =>
      (((tokens.take (tokens.length - rest.length)).flatMap (fun lexeme => lexeme.token.text),
        value), rest)) := rfl

theorem token_reads_iff {read : Lexeme → Option α} {tokens rest : List Lexeme} {value : α} :
    (token read).Reads tokens value rest ↔
      ∃ lexeme, tokens = lexeme :: rest ∧ read lexeme = some value := by
  constructor
  · intro found
    cases tokens with
    | nil => cases found
    | cons lexeme tokens =>
        simp only [Reads, token, Option.map_eq_some_iff, Prod.mk.injEq] at found
        obtain ⟨_, accepted, rfl, rfl⟩ := found
        exact ⟨lexeme, rfl, accepted⟩
  · rintro ⟨lexeme, rfl, accepted⟩
    exact token_reads rest accepted

theorem symbol_reads_iff {c : Char} {tokens rest : List Lexeme} {value : Unit} :
    (symbol c).Reads tokens value rest ↔ ∃ gap, tokens = ⟨gap, .symbol c⟩ :: rest := by
  constructor
  · intro found
    obtain ⟨⟨gap, first⟩, rfl, accepted⟩ := token_reads_iff.mp found
    split at accepted
    · rename_i same
      exact ⟨gap, by rw [← same]⟩
    · cases accepted
  · rintro ⟨gap, rfl⟩
    exact symbol_reads c gap rest

theorem keyword_reads_iff {spelling : String} {tokens rest : List Lexeme} {value : Unit} :
    (keyword spelling).Reads tokens value rest ↔
      ∃ gap, tokens = ⟨gap, .word spelling.toList⟩ :: rest := by
  constructor
  · intro found
    unfold Reads keyword at found
    rw [named_outcome] at found
    obtain ⟨⟨gap, first⟩, rfl, accepted⟩ := token_reads_iff.mp found
    split at accepted
    · rename_i same
      exact ⟨gap, by rw [← same]⟩
    · cases accepted
  · rintro ⟨gap, rfl⟩
    exact keyword_reads spelling gap rest

/-! ## Tokens that are taken -/

def innerMarks : List Char := "+-*/^=!<>,[]().".toList

def isInner : Token → Bool
  | .symbol c => innerMarks.contains c
  | _ => true

def plainMarks : List Char := "+-*/^=!<>,.".toList

def isPlain : Token → Bool
  | .symbol c => plainMarks.contains c
  | _ => true

def isOpening : Token → Bool
  | .symbol c => c = '(' || c = '['
  | _ => false

def isClosing : Token → Bool
  | .symbol c => c = ')' || c = ']'
  | _ => false

/-- All tokens stand inside a statement, and every bracket among them is opened and closed among them. -/
inductive Balanced : List Lexeme → Prop where
  | nothing : Balanced []
  | token {lexeme : Lexeme} (plain : isPlain lexeme.token = true) : Balanced [lexeme]
  | append {front back : List Lexeme} (first : Balanced front) (second : Balanced back) :
      Balanced (front ++ back)
  | enclosed {first last : Lexeme} {inner : List Lexeme} (opens : isOpening first.token = true)
      (inside : Balanced inner) (closes : isClosing last.token = true) :
      Balanced (first :: (inner ++ [last]))

theorem plain_is_inner {token : Token} (plain : isPlain token = true) : isInner token = true := by
  have marks : plainMarks.all innerMarks.contains = true := by decide +kernel
  cases token with
  | symbol c => exact List.all_eq_true.mp marks c (List.contains_iff_mem.mp plain)
  | word text => rfl
  | digits text => rfl

theorem opening_is_inner {token : Token} (opens : isOpening token = true) : isInner token = true := by
  cases token with
  | symbol c =>
      rcases (by simpa [isOpening] using opens : c = '(' ∨ c = '[') with rfl | rfl <;> decide
  | word text => rfl
  | digits text => rfl

theorem closing_is_inner {token : Token} (closes : isClosing token = true) : isInner token = true := by
  cases token with
  | symbol c =>
      rcases (by simpa [isClosing] using closes : c = ')' ∨ c = ']') with rfl | rfl <;> decide
  | word text => rfl
  | digits text => rfl

theorem Balanced.inner {tokens : List Lexeme} (balanced : Balanced tokens) :
    ∀ lexeme ∈ tokens, isInner lexeme.token = true := by
  induction balanced with
  | nothing => simp
  | token plain => exact List.forall_mem_singleton.mpr (plain_is_inner plain)
  | append _ _ first second => exact List.forall_mem_append.mpr ⟨first, second⟩
  | enclosed opens _ closes inside =>
      exact List.forall_mem_cons.mpr ⟨opening_is_inner opens,
        List.forall_mem_append.mpr ⟨inside, List.forall_mem_singleton.mpr (closing_is_inner closes)⟩⟩

/-- `least` tokens or more stand in front of `rest`, and they are balanced. -/
def Takes (least : Nat) (tokens rest : List Lexeme) : Prop :=
  ∃ taken, tokens = taken ++ rest ∧ least ≤ taken.length ∧ Balanced taken

theorem Takes.nothing (tokens : List Lexeme) : Takes 0 tokens tokens :=
  ⟨[], rfl, Nat.le_refl 0, .nothing⟩

theorem Takes.token {lexeme : Lexeme} (plain : isPlain lexeme.token = true) (rest : List Lexeme) :
    Takes 1 (lexeme :: rest) rest :=
  ⟨[lexeme], rfl, Nat.le_refl 1, .token plain⟩

theorem Takes.append {least further : Nat} {tokens middle rest : List Lexeme}
    (first : Takes least tokens middle) (second : Takes further middle rest) :
    Takes (least + further) tokens rest := by
  obtain ⟨front, rfl, enough, balanced⟩ := first
  obtain ⟨back, rfl, more, alsoBalanced⟩ := second
  refine ⟨front ++ back, by simp, ?_, balanced.append alsoBalanced⟩
  rw [List.length_append]
  omega

theorem Takes.enclosed {least : Nat} {first last : Lexeme} {tokens rest : List Lexeme}
    (opens : isOpening first.token = true) (inside : Takes least tokens (last :: rest))
    (closes : isClosing last.token = true) : Takes 1 (first :: tokens) rest := by
  obtain ⟨inner, rfl, _, balanced⟩ := inside
  exact ⟨first :: (inner ++ [last]), by simp, by simp, balanced.enclosed opens closes⟩

theorem Takes.lower {least fewer : Nat} {tokens rest : List Lexeme} (taken : Takes least tokens rest)
    (less : fewer ≤ least) : Takes fewer tokens rest := by
  obtain ⟨front, same, enough, balanced⟩ := taken
  exact ⟨front, same, Nat.le_trans less enough, balanced⟩

theorem Takes.length {least : Nat} {tokens rest : List Lexeme} (taken : Takes least tokens rest) :
    rest.length + least ≤ tokens.length := by
  obtain ⟨front, rfl, enough, _⟩ := taken
  rw [List.length_append]
  omega

/-! ## Changes of tokens -/

/-- A change of tokens that keeps what they are and which of them touch.  There may be other gaps between
them, and more tokens behind them. -/
structure Retokening where
  apply : List Lexeme → List Lexeme
  count : Nat
  /-- The lists that the change is meant for. -/
  Valid : List Lexeme → Prop
  valid_behind : ∀ {taken rest : List Lexeme}, Valid (taken ++ rest) → Balanced taken → Valid rest
  valid_inside : ∀ {lexeme : Lexeme} {rest : List Lexeme}, Valid (lexeme :: rest) →
    isOpening lexeme.token = true → Valid rest
  nothing : Valid [] → apply [] = []
  first : ∀ {lexeme : Lexeme} {rest : List Lexeme}, Valid (lexeme :: rest) →
    ∃ gap, (gap = .none ↔ lexeme.gap = .none) ∧
      apply (lexeme :: rest) = ⟨gap, lexeme.token⟩ :: apply rest
  length : ∀ {tokens : List Lexeme}, Valid tokens → (apply tokens).length = tokens.length + count

namespace Retokening

theorem rest (retoken : Retokening) {least : Nat} {tokens rest : List Lexeme} (valid : retoken.Valid tokens)
    (taken : Takes least tokens rest) : retoken.Valid rest := by
  obtain ⟨front, rfl, _, balanced⟩ := taken
  exact retoken.valid_behind valid balanced

theorem balanced_front (retoken : Retokening) {front rest : List Lexeme} (balanced : Balanced front)
    (valid : retoken.Valid (front ++ rest)) :
    ∃ others, retoken.apply (front ++ rest) = others ++ retoken.apply rest ∧
      others.flatMap (fun lexeme => lexeme.token.text) =
        front.flatMap (fun lexeme => lexeme.token.text) := by
  induction balanced generalizing rest with
  | nothing => exact ⟨[], rfl, rfl⟩
  | @token lexeme plain =>
      obtain ⟨gap, _, first⟩ := retoken.first valid
      exact ⟨[⟨gap, lexeme.token⟩], first, rfl⟩
  | append first second frontInduction backInduction =>
      rw [List.append_assoc] at valid ⊢
      obtain ⟨others, applied, text⟩ := frontInduction valid
      obtain ⟨further, behind, laterText⟩ := backInduction (retoken.valid_behind valid first)
      refine ⟨others ++ further, ?_, ?_⟩
      · rw [applied, behind, List.append_assoc]
      · rw [List.flatMap_append, List.flatMap_append, text, laterText]
  | @enclosed opening closing inner opens inside closes induction =>
      have shape : opening :: (inner ++ [closing]) ++ rest = opening :: (inner ++ closing :: rest) := by
        simp
      rw [shape] at valid ⊢
      have within := retoken.valid_inside valid opens
      obtain ⟨gap, _, first⟩ := retoken.first valid
      obtain ⟨others, applied, text⟩ := induction within
      obtain ⟨lastGap, _, last⟩ := retoken.first (retoken.valid_behind within inside)
      refine ⟨⟨gap, opening.token⟩ :: (others ++ [⟨lastGap, closing.token⟩]), ?_, ?_⟩
      · rw [first, applied, last]
        simp
      · simp [text]

theorem front (retoken : Retokening) {least : Nat} {tokens rest : List Lexeme} (valid : retoken.Valid tokens)
    (taken : Takes least tokens rest) :
    ∃ front others, tokens = front ++ rest ∧ retoken.apply tokens = others ++ retoken.apply rest ∧
      others.flatMap (fun lexeme => lexeme.token.text) =
        front.flatMap (fun lexeme => lexeme.token.text) := by
  obtain ⟨front, rfl, _, balanced⟩ := taken
  obtain ⟨others, applied, text⟩ := retoken.balanced_front balanced valid
  exact ⟨front, others, rfl, applied, text⟩

end Retokening

/-! ## Matching parsers -/

variable {retoken : Retokening} {bound least further : Nat} {related : α → β → Prop}
  {relatedNext : γ → δ → Prop}

/-- Outcomes on some tokens before and after a change that correspond: nothing, or related values with
corresponding tokens behind `least` tokens or more that are balanced. -/
def Corresponds (retoken : Retokening) (least : Nat) (related : α → β → Prop) (tokens : List Lexeme)
    (outcome : Option (α × List Lexeme)) (other : Option (β × List Lexeme)) : Prop :=
  (outcome = none ∧ other = none) ∨
    ∃ value moved rest, outcome = some (value, rest) ∧ other = some (moved, retoken.apply rest) ∧
      related value moved ∧ Takes least tokens rest

theorem nothing_corresponds {tokens : List Lexeme} :
    Corresponds retoken least related tokens none none :=
  Or.inl ⟨rfl, rfl⟩

theorem found_corresponds {tokens rest : List Lexeme} {value : α} {moved : β}
    (same : related value moved) (taken : Takes least tokens rest) :
    Corresponds retoken least related tokens (some (value, rest))
      (some (moved, retoken.apply rest)) :=
  Or.inr ⟨value, moved, rest, rfl, rfl, same, taken⟩

/-- On fewer than `bound` tokens, `other` finds after the change what `parser` finds before, up to
`related`. -/
def Matches (retoken : Retokening) (bound least : Nat) (related : α → β → Prop) (parser : Parser α)
    (other : Parser β) : Prop :=
  ∀ tokens : List Lexeme, tokens.length < bound → retoken.Valid tokens →
    Corresponds retoken least related tokens (parser tokens).outcome
      (other (retoken.apply tokens)).outcome

theorem Corresponds.takes {tokens rest : List Lexeme} {value : α} {outcome : Option (α × List Lexeme)}
    {other : Option (β × List Lexeme)}
    (same : Corresponds retoken least related tokens outcome other)
    (found : outcome = some (value, rest)) : Takes least tokens rest := by
  rcases same with ⟨rfl, _⟩ | ⟨_, _, _, rfl, _, _, taken⟩
  · cases found
  · cases found
    exact taken

theorem Matches.mono {parser : Parser α} {other : Parser β}
    (matching : Matches retoken bound least related parser other) {smaller fewer : Nat}
    (below : smaller ≤ bound) (less : fewer ≤ least) :
    Matches retoken smaller fewer related parser other := by
  intro tokens short valid
  rcases matching tokens (by omega) valid with both | ⟨value, moved, rest, found, reads, same, taken⟩
  · exact Or.inl both
  · exact Or.inr ⟨value, moved, rest, found, reads, same, taken.lower less⟩

theorem no_tokens_match (parser : Parser α) (other : Parser β) :
    Matches retoken 0 least related parser other :=
  fun _ short _ => absurd short (Nat.not_lt_zero _)

theorem fail_matches : Matches retoken bound least related fail fail :=
  fun _ _ _ => nothing_corresponds

theorem pure_matches {value : α} {other : β} (same : related value other) :
    Matches retoken bound 0 related (pure value) (pure other) :=
  fun tokens _ _ => found_corresponds same (.nothing tokens)

theorem ahead_matches :
    Matches retoken bound 0 (fun count other => other = count + retoken.count) ahead ahead :=
  fun tokens _ valid => found_corresponds (retoken.length valid) (.nothing tokens)

/-- The second parser has only the tokens that the first one leaves. -/
theorem bind_matches {first : Parser α} {next : α → Parser γ} {otherFirst : Parser β}
    {otherNext : β → Parser δ} (start : Matches retoken bound least related first otherFirst)
    (others : ∀ value moved, related value moved →
      Matches retoken (bound - least) further relatedNext (next value) (otherNext moved)) :
    Matches retoken bound (least + further) relatedNext (first >>= next)
      (otherFirst >>= otherNext) := by
  intro tokens short valid
  rw [bind_outcome, bind_outcome]
  rcases start tokens short valid with
    ⟨missed, lost⟩ | ⟨value, moved, rest, found, reads, same, taken⟩
  · rw [missed, lost]
    exact nothing_corresponds
  · have fewer := taken.length
    rw [found, reads]
    rcases others value moved same rest (by omega) (retoken.rest valid taken) with
      ⟨missed, lost⟩ | ⟨later, laterMoved, last, found, reads, same, more⟩
    · exact Or.inl ⟨missed, lost⟩
    · exact Or.inr ⟨later, laterMoved, last, found, reads, same, taken.append more⟩

/-- What begins with a token, and goes on with things that may nest less deeply. -/
theorem leading_matches {first : Parser α} {next : α → Parser γ} {otherFirst : Parser β}
    {otherNext : β → Parser δ} (start : Matches retoken bound 1 related first otherFirst)
    (others : ∀ value moved, related value moved →
      Matches retoken (bound - 1) 0 relatedNext (next value) (otherNext moved)) :
    Matches retoken bound 1 relatedNext (first >>= next) (otherFirst >>= otherNext) :=
  bind_matches start others

theorem then_matches {first : Parser α} {next : α → Parser γ} {otherFirst : Parser β}
    {otherNext : β → Parser δ} (start : Matches retoken bound further related first otherFirst)
    (others : ∀ value moved, related value moved →
      Matches retoken bound least relatedNext (next value) (otherNext moved)) :
    Matches retoken bound least relatedNext (first >>= next) (otherFirst >>= otherNext) := by
  have both := bind_matches (start.mono (Nat.le_refl bound) (Nat.zero_le further)) others
  rw [Nat.zero_add] at both
  exact both

theorem or_else_matches {first second : Parser α} {otherFirst otherSecond : Parser β}
    (matching : Matches retoken bound least related first otherFirst)
    (alternative : Matches retoken bound least related second otherSecond) :
    Matches retoken bound least related (orElse first second) (orElse otherFirst otherSecond) := by
  intro tokens short valid
  rw [or_else_outcome, or_else_outcome]
  rcases matching tokens short valid with
    ⟨missed, lost⟩ | ⟨value, moved, rest, found, reads, same, taken⟩
  · rw [missed, lost, Option.none_or, Option.none_or]
    exact alternative tokens short valid
  · rw [found, reads]
    exact found_corresponds same taken

theorem first_of_matches {choices : List (Parser α)} {others : List (Parser β)}
    (matching : List.Forall₂ (Matches retoken bound least related) choices others) :
    Matches retoken bound least related (firstOf choices) (firstOf others) := by
  induction matching with
  | nil => exact fail_matches
  | cons first _ induction => exact or_else_matches first induction

theorem optional_matches {parser : Parser α} {other : Parser β}
    (matching : Matches retoken bound least related parser other) :
    Matches retoken bound 0 (Option.Rel related) (optional parser) (optional other) := by
  intro tokens short valid
  rw [optional_outcome, optional_outcome]
  rcases matching tokens short valid with
    ⟨missed, lost⟩ | ⟨value, moved, rest, found, reads, same, taken⟩
  · rw [missed, lost]
    exact found_corresponds .none (.nothing tokens)
  · rw [found, reads]
    exact found_corresponds (.some same) (taken.lower (Nat.zero_le _))

theorem optional_eq_map {move : α → β} {value : Option α} {moved : Option β}
    (same : Option.Rel (fun value moved => moved = move value) value moved) :
    moved = value.map move := by
  cases same with
  | none => rfl
  | some same => exact congrArg some same

/-- Neither repetition runs out of attempts, for each round takes a token. -/
theorem up_to_corresponds {parser : Parser α} {other : Parser β}
    (matching : Matches retoken bound (least + 1) related parser other) (count otherCount : Nat)
    (tokens : List Lexeme) (short : tokens.length < bound) (valid : retoken.Valid tokens)
    (enough : tokens.length < count) (otherEnough : tokens.length < otherCount) :
    Corresponds retoken 0 (List.Forall₂ related) tokens (upTo parser count tokens).outcome
      (upTo other otherCount (retoken.apply tokens)).outcome := by
  -- Both counts go down together; tokens put behind only make the second one start higher.
  induction count generalizing otherCount tokens with
  | zero => omega
  | succ count induction =>
      cases otherCount with
      | zero => omega
      | succ otherCount =>
          rw [up_to_outcome, up_to_outcome]
          rcases matching tokens short valid with
            ⟨missed, lost⟩ | ⟨value, moved, rest, found, reads, same, taken⟩
          · rw [missed, lost]
            exact found_corresponds .nil (.nothing tokens)
          · have fewer := taken.length
            rw [found, reads, Option.elim_some, Option.elim_some]
            dsimp only
            rcases induction otherCount rest (by omega) (retoken.rest valid taken) (by omega) (by omega) with
              ⟨missed, lost⟩ | ⟨others, othersMoved, last, found, reads, all, more⟩
            · rw [missed, lost]
              exact nothing_corresponds
            · rw [found, reads]
              exact found_corresponds (.cons same all) ((taken.append more).lower (Nat.zero_le _))

theorem many_matches {parser : Parser α} {other : Parser β}
    (matching : Matches retoken bound (least + 1) related parser other) :
    Matches retoken bound 0 (List.Forall₂ related) (many parser) (many other) := by
  intro tokens short valid
  have longer := retoken.length valid
  exact up_to_corresponds matching _ _ tokens short valid (by omega) (by omega)

theorem named_matches {part : Expectation} {parser : Parser α} {other : Parser β}
    (matching : Matches retoken bound least related parser other) :
    Matches retoken bound least related (named part parser) (named part other) := by
  intro tokens short valid
  rw [named_outcome, named_outcome]
  exact matching tokens short valid

/-- The text is that of the tokens taken, and these keep their characters. -/
theorem with_text_matches {parser : Parser α} {other : Parser β}
    (matching : Matches retoken bound least related parser other) :
    Matches retoken bound least
      (fun found moved => moved.1 = found.1 ∧ related found.2 moved.2) (withText parser)
      (withText other) := by
  intro tokens short valid
  rw [with_text_outcome, with_text_outcome]
  rcases matching tokens short valid with
    ⟨missed, lost⟩ | ⟨value, moved, rest, found, reads, same, taken⟩
  · rw [missed, lost]
    exact nothing_corresponds
  · obtain ⟨front, others, rfl, applied, text⟩ := retoken.front valid taken
    rw [found, reads]
    refine found_corresponds ⟨?_, same⟩ taken
    simpa [applied] using text

theorem token_matches {read : Lexeme → Option α}
    (plain : ∀ (lexeme : Lexeme) (value : α), read lexeme = some value → isPlain lexeme.token = true)
    (blind : ∀ (lexeme : Lexeme) (gap : Gap), (gap = .none ↔ lexeme.gap = .none) →
      read ⟨gap, lexeme.token⟩ = read lexeme) :
    Matches retoken bound 1 Eq (token read) (token read) := by
  intro tokens short valid
  cases tokens with
  | nil =>
      rw [retoken.nothing valid]
      exact nothing_corresponds
  | cons lexeme tokens =>
      obtain ⟨gap, touching, applied⟩ := retoken.first valid
      rw [applied]
      simp only [token, blind lexeme gap touching]
      cases accepted : read lexeme with
      | none => exact nothing_corresponds
      | some value => exact found_corresponds rfl (.token (plain lexeme value accepted) tokens)

theorem symbol_matches {c : Char} (mark : plainMarks.contains c = true) :
    Matches retoken bound 1 Eq (symbol c) (symbol c) := by
  apply token_matches
  · intro lexeme value accepted
    split at accepted
    · rename_i same
      rw [same]
      exact mark
    · cases accepted
  · intro lexeme gap touching
    rfl

theorem touching_matches {c : Char} (mark : plainMarks.contains c = true) :
    Matches retoken bound 1 Eq (touching c) (touching c) := by
  apply token_matches
  · intro lexeme value accepted
    split at accepted
    · rename_i same
      rw [same.2]
      exact mark
    · cases accepted
  · intro lexeme gap touching
    simp [touching]

theorem keyword_matches (spelling : String) :
    Matches retoken bound 1 Eq (keyword spelling)
      (keyword spelling) := by
  apply named_matches
  apply token_matches
  · intro lexeme value accepted
    split at accepted
    · rename_i same
      rw [same]
      rfl
    · cases accepted
  · intro lexeme gap touching
    rfl

theorem keyword_then_matches {spelling : String} {next : Parser γ} {otherNext : Parser δ}
    (others : Matches retoken bound least relatedNext next otherNext) :
    Matches retoken bound least relatedNext (keyword spelling >>= fun _ => next)
      (keyword spelling >>= fun _ => otherNext) :=
  then_matches (keyword_matches spelling) (fun _ _ _ => others)

theorem symbol_then_matches {c : Char} (mark : plainMarks.contains c = true) {next : Parser γ}
    {otherNext : Parser δ} (others : Matches retoken bound least relatedNext next otherNext) :
    Matches retoken bound least relatedNext (symbol c >>= fun _ => next)
      (symbol c >>= fun _ => otherNext) :=
  then_matches (symbol_matches mark) (fun _ _ _ => others)

/-- A symbol stands in front of both lists or of none, also if it is a bracket. -/
theorem symbol_in_both (c : Char) {tokens : List Lexeme} (valid : retoken.Valid tokens) :
    ((symbol c).Misses tokens ∧ (symbol c).Misses (retoken.apply tokens)) ∨
      ∃ lexeme rest, tokens = lexeme :: rest ∧ lexeme.token = .symbol c ∧
        (symbol c).Reads tokens () rest ∧
        (symbol c).Reads (retoken.apply tokens) () (retoken.apply rest) := by
  cases tokens with
  | nil =>
      rw [retoken.nothing valid]
      exact Or.inl ⟨rfl, rfl⟩
  | cons lexeme rest =>
      obtain ⟨gap, _, applied⟩ := retoken.first valid
      rw [applied]
      by_cases same : lexeme.token = .symbol c
      · refine Or.inr ⟨lexeme, rest, rfl, same, ?_, ?_⟩
        · exact token_reads rest (if_pos same)
        · exact token_reads _ (if_pos same)
      · exact Or.inl ⟨symbol_misses (by simpa [firstToken] using same),
          symbol_misses (by simpa [firstToken] using same)⟩

/-- Things in brackets.  Only behind the closing bracket is it known that the brackets balance. -/
theorem enclosed_matches {opening closing : Char} {inside : Parser α} {otherInside : Parser β}
    {next : α → Parser γ} {otherNext : β → Parser δ} (opens : isOpening (.symbol opening) = true)
    (closes : isClosing (.symbol closing) = true)
    (matching : Matches retoken (bound - 1) least related inside otherInside)
    (others : ∀ value moved, related value moved →
      Matches retoken bound 0 relatedNext (next value) (otherNext moved)) :
    Matches retoken bound 1 relatedNext
      (symbol opening >>= fun _ => inside >>= fun value => symbol closing >>= fun _ => next value)
      (symbol opening >>= fun _ => otherInside >>= fun moved =>
        symbol closing >>= fun _ => otherNext moved) := by
  intro tokens short valid
  rcases symbol_in_both opening valid with
    ⟨missed, lost⟩ | ⟨first, behind, rfl, bracket, found, reads⟩
  · exact Or.inl ⟨bind_misses _ missed, bind_misses _ lost⟩
  have opened : isOpening first.token = true := by rw [bracket, opens]
  have within := retoken.valid_inside valid opened
  rw [bind_outcome, bind_outcome, found, reads, Option.bind_some, Option.bind_some]
  dsimp only
  rw [bind_outcome, bind_outcome]
  rw [List.length_cons] at short
  rcases matching behind (by omega) within with
    ⟨missed, lost⟩ | ⟨value, moved, middle, found, reads, same, taken⟩
  · rw [missed, lost]
    exact nothing_corresponds
  rw [found, reads, Option.bind_some, Option.bind_some]
  dsimp only
  rcases symbol_in_both closing (retoken.rest within taken) with
    ⟨missed, lost⟩ | ⟨last, rest, rfl, bracket, found, reads⟩
  · exact Or.inl ⟨bind_misses _ missed, bind_misses _ lost⟩
  have fewer := taken.length
  rw [List.length_cons] at fewer
  have whole := taken.enclosed opened (by rw [bracket, closes])
  rw [bind_outcome, bind_outcome, found, reads]
  rcases others value moved same rest (by omega) (retoken.rest valid whole) with
    ⟨missed, lost⟩ | ⟨later, laterMoved, final, found, reads, same, more⟩
  · exact Or.inl ⟨missed, lost⟩
  · exact Or.inr ⟨later, laterMoved, final, found, reads, same, whole.append more⟩

theorem Matches.of_outcomes {parser same : Parser α} {other otherSame : Parser β}
    (matching : Matches retoken bound least related same otherSame)
    (outcomes : ∀ tokens, (parser tokens).outcome = (same tokens).outcome)
    (others : ∀ tokens, (other tokens).outcome = (otherSame tokens).outcome) :
    Matches retoken bound least related parser other := by
  intro tokens short valid
  rw [outcomes, others]
  exact matching tokens short valid

/-! ## Repetitions of parsers that take something -/

/-- The parser takes a token at least from fewer than `bound` tokens. -/
def Shrinks (bound : Nat) (parser : Parser α) : Prop :=
  ∀ (tokens : List Lexeme) (value : α) (rest : List Lexeme), tokens.length < bound →
    parser.Reads tokens value rest → rest.length < tokens.length

theorem up_to_enough {parser : Parser α} (shrinks : Shrinks bound parser) {count otherCount : Nat}
    {tokens : List Lexeme} (short : tokens.length < bound) (enough : tokens.length < count)
    (otherEnough : tokens.length < otherCount) :
    (upTo parser otherCount tokens).outcome = (upTo parser count tokens).outcome := by
  induction count generalizing otherCount tokens with
  | zero => omega
  | succ count induction =>
      cases otherCount with
      | zero => omega
      | succ otherCount =>
          rw [up_to_outcome, up_to_outcome]
          cases found : (parser tokens).outcome with
          | none => rfl
          | some result =>
              have fewer := shrinks tokens result.1 result.2 short found
              have later : (upTo parser otherCount result.2).outcome =
                  (upTo parser count result.2).outcome := by
                apply induction <;> omega
              simp only [Option.elim_some, later]

theorem many_outcome {parser : Parser α} (shrinks : Shrinks bound parser) {tokens rest : List Lexeme}
    {value : α} (short : tokens.length < bound) (found : parser.Reads tokens value rest) :
    (many parser tokens).outcome =
      (many parser rest).outcome.map (fun (values, last) => (value :: values, last)) := by
  have fewer := shrinks tokens value rest short found
  have rounds : (upTo parser tokens.length rest).outcome = (many parser rest).outcome := by
    exact up_to_enough shrinks (by omega) (by omega) fewer
  unfold Reads at found
  rw [many, up_to_outcome, found, Option.elim_some]
  exact congrArg (Option.map _) rounds

theorem repeats_of_many {parser : Parser α} (shrinks : Shrinks bound parser) {count : Nat}
    {tokens rest : List Lexeme} {values : List α} (short : tokens.length < bound)
    (enough : tokens.length < count) (found : (upTo parser count).Reads tokens values rest) :
    Repeats parser tokens values rest := by
  unfold Reads at found
  induction count generalizing tokens values with
  | zero => omega
  | succ count induction =>
      rw [up_to_outcome] at found
      cases inner : (parser tokens).outcome with
      | none =>
          rw [inner] at found
          cases found
          exact .stop inner
      | some result =>
          obtain ⟨value, middle⟩ := result
          have fewer := shrinks tokens value middle short inner
          rw [inner, Option.elim_some, Option.map_eq_some_iff] at found
          obtain ⟨⟨others, last⟩, found, same⟩ := found
          cases same
          exact .more inner fewer (induction (by omega) (by omega) found)

/-! ## The gap in front of the first token -/

/-- The parser finds the same whatever separates its first token from the one before it. -/
def IgnoresGap (parser : Parser α) : Prop :=
  ∀ (gap other : Gap) (first : Token) (rest : List Lexeme),
    (parser (⟨gap, first⟩ :: rest)).outcome = (parser (⟨other, first⟩ :: rest)).outcome

theorem token_ignores_gap {read : Lexeme → Option α}
    (same : ∀ (gap other : Gap) (first : Token), read ⟨gap, first⟩ = read ⟨other, first⟩) :
    IgnoresGap (token read) := by
  intro gap other first rest
  simp only [token, same gap other first]

theorem named_ignores_gap (part : Expectation) {parser : Parser α} (ignores : IgnoresGap parser) :
    IgnoresGap (named part parser) := by
  intro gap other first rest
  rw [named_outcome, named_outcome]
  exact ignores gap other first rest

theorem keyword_ignores_gap (spelling : String) : IgnoresGap (keyword spelling) :=
  named_ignores_gap _ (token_ignores_gap (fun _ _ _ => rfl))

theorem bind_ignores_gap {first : Parser α} (next : α → Parser β) (ignores : IgnoresGap first) :
    IgnoresGap (first >>= next) := by
  intro gap other token rest
  rw [bind_outcome, bind_outcome, ignores gap other token rest]

theorem ahead_bind_ignores_gap {next : Nat → Parser β} (ignores : ∀ count, IgnoresGap (next count)) :
    IgnoresGap (ahead >>= next) := by
  intro gap other token rest
  exact ignores (rest.length + 1) gap other token rest

theorem first_of_ignores_gap {choices : List (Parser α)}
    (ignores : ∀ parser ∈ choices, IgnoresGap parser) : IgnoresGap (firstOf choices) := by
  intro gap other token rest
  induction choices with
  | nil => rfl
  | cons parser choices induction =>
      have others := induction (fun later member => ignores later (List.mem_cons_of_mem _ member))
      have own := ignores parser (by simp) gap other token rest
      change (orElse _ _ _).outcome = (orElse _ _ _).outcome
      rw [or_else_outcome, or_else_outcome, own]
      exact congrArg _ others

end PolicyLevers.Script.Parser
