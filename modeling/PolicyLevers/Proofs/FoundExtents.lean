import PolicyLevers.Proofs.CompactLabels
import PolicyLevers.Proofs.JoinedTokens

/-!
# Places of what is found

Where a parser stops is told by the number of tokens it leaves, and the parts of a phrase carry the places
where they start and stop.  So what the grammar finds stretches from the place where it was looked for to the
place behind it, and every fault in it lies between these two.
-/

namespace PolicyLevers.Script

set_option autoImplicit false

namespace Parser

variable {α β : Type} {start : Nat} {fits : Nat → α → Prop}

/-- What the parser finds with `start` tokens ahead fits the number of tokens that it leaves. -/
def Finds (start : Nat) (fits : Nat → α → Prop) (parser : Parser α) : Prop :=
  ∀ tokens value rest, tokens.length = start → parser.Reads tokens value rest → fits rest.length value

theorem Finds.mono {wider : Nat → α → Prop} {parser : Parser α} (found : Finds start fits parser)
    (weaker : ∀ left value, fits left value → wider left value) : Finds start wider parser :=
  fun tokens value rest length reads => weaker _ _ (found tokens value rest length reads)

theorem fail_finds : Finds start fits fail := by
  intro tokens value rest _ reads
  cases reads

theorem pure_finds {value : α} (fit : fits start value) : Finds start fits (pure value) := by
  rintro tokens _ _ rfl reads
  cases reads
  exact fit

theorem bind_finds {first : Parser β} {next : β → Parser α} {between : Nat → β → Prop}
    (found : Finds start between first)
    (others : ∀ middle value, between middle value → Finds middle fits (next value)) :
    Finds start fits (first >>= next) := by
  intro tokens value rest length reads
  obtain ⟨own, middle, front, back⟩ := bind_reads_iff.mp reads
  exact others _ own (found tokens own middle length front) middle value rest rfl back

theorem ahead_finds {next : Nat → Parser α} (others : Finds start fits (next start)) :
    Finds start fits (ahead >>= next) := by
  have count : Finds start (fun left own => left = start ∧ own = start) ahead := by
    rintro tokens _ _ rfl reads
    cases reads
    exact ⟨rfl, rfl⟩
  refine bind_finds count ?_
  rintro _ _ ⟨rfl, rfl⟩
  exact others

theorem named_finds {part : Expectation} {parser : Parser α} (found : Finds start fits parser) :
    Finds start fits (named part parser) := by
  intro tokens value rest length reads
  unfold Reads at reads
  rw [named_outcome] at reads
  exact found tokens value rest length reads

theorem first_of_finds {choices : List (Parser α)}
    (found : ∀ parser ∈ choices, Finds start fits parser) : Finds start fits (firstOf choices) := by
  intro tokens value rest length reads
  obtain ⟨parser, member, own⟩ := first_of_found reads
  exact found parser member tokens value rest length own

theorem optional_finds {parser : Parser α} (found : Finds start fits parser) :
    Finds start (fun left own => (own = none ∧ left = start) ∨ ∃ value, own = some value ∧ fits left value)
      (optional parser) := by
  rintro tokens own rest length reads
  unfold Reads at reads
  rw [optional_outcome] at reads
  cases outcome : (parser tokens).outcome with
  | none =>
      rw [outcome] at reads
      cases reads
      exact Or.inl ⟨rfl, length⟩
  | some result =>
      obtain ⟨value, last⟩ := result
      rw [outcome] at reads
      cases reads
      exact Or.inr ⟨value, rfl, found tokens value _ length outcome⟩

theorem with_text_finds {parser : Parser α} (found : Finds start fits parser) :
    Finds start (fun left own => fits left own.2) (withText parser) := by
  rintro tokens own rest length reads
  unfold Reads at reads
  rw [with_text_outcome, Option.map_eq_some_iff] at reads
  obtain ⟨⟨value, last⟩, outcome, same⟩ := reads
  cases same
  exact found tokens value _ length outcome

/-! ## Tokens -/

theorem token_finds (read : Lexeme → Option α) : Finds start (fun left _ => left < start) (token read) := by
  rintro tokens value rest rfl reads
  obtain ⟨lexeme, rfl, _⟩ := token_reads_iff.mp reads
  exact Nat.lt_succ_self _

theorem symbol_then_finds {c : Char} {next : Unit → Parser α}
    (others : ∀ left, left < start → Finds left fits (next ())) :
    Finds start fits (symbol c >>= next) :=
  bind_finds (token_finds _) (fun left _ => others left)

theorem keyword_then_finds {spelling : String} {next : Unit → Parser α}
    (others : ∀ left, left < start → Finds left fits (next ())) :
    Finds start fits (keyword spelling >>= next) :=
  bind_finds (named_finds (token_finds _)) (fun left _ => others left)

/-! ## Repeated parsers -/

/-- Values found one behind the other, each where the one before it was left. -/
inductive Row (step : Nat → Nat → α → Prop) : Nat → List α → Nat → Prop where
  | nothing (place : Nat) : Row step place [] place
  | further {start middle left : Nat} {value : α} {values : List α} (found : step start middle value)
      (others : Row step middle values left) : Row step start (value :: values) left

theorem many_finds {step : Nat → Nat → α → Prop} {parser : Parser α}
    (found : ∀ start, Finds start (step start) parser) (start : Nat) :
    Finds start (fun left values => Row step start values left) (many parser) := by
  rintro tokens values rest rfl reads
  unfold Reads many at reads
  generalize tokens.length + 1 = count at reads
  induction count generalizing tokens values with
  | zero =>
      cases reads
      exact .nothing _
  | succ count induction =>
      rw [up_to_outcome] at reads
      cases outcome : (parser tokens).outcome with
      | none =>
          rw [outcome] at reads
          cases reads
          exact .nothing _
      | some result =>
          obtain ⟨value, middle⟩ := result
          rw [outcome] at reads
          obtain ⟨⟨others, last⟩, later, same⟩ := Option.map_eq_some_iff.mp reads
          cases same
          exact .further (found _ tokens value middle rfl outcome) (induction middle others later)

/-- The values stand between the start of the row and its end. -/
theorem Row.each {step : Nat → Nat → α → Prop} {start left : Nat} {values : List α}
    (row : Row step start values left) (shorter : ∀ first last value, step first last value → last < first) :
    left ≤ start ∧ ∀ value ∈ values, ∃ first last, first ≤ start ∧ left ≤ last ∧ step first last value := by
  induction row with
  | nothing place => exact ⟨Nat.le_refl _, by simp⟩
  | @further start middle left value values found others induction =>
      obtain ⟨behind, each⟩ := induction
      have fewer := shorter _ _ _ found
      refine ⟨by omega, List.forall_mem_cons.mpr ⟨⟨start, middle, Nat.le_refl _, behind, found⟩, ?_⟩⟩
      intro other member
      obtain ⟨first, last, early, late, own⟩ := each other member
      exact ⟨first, last, by omega, late, own⟩

theorem list_of_finds {step : Nat → Nat → α → Prop} {item : Parser α}
    (found : ∀ start, Finds start (step start) item)
    (shorter : ∀ first last value, step first last value → last < first) (start : Nat) :
    Finds start (fun left values => left < start ∧
      ∀ value ∈ values, ∃ first last, first ≤ start ∧ left ≤ last ∧ step first last value)
      (Grammar.listOf item) := by
  have further (place : Nat) : Finds place (fun left value => ∃ middle, middle < place ∧ step middle left value)
      (symbol ',' >>= fun _ => item) :=
    symbol_then_finds (fun middle fewer => (found middle).mono (fun _ _ own => ⟨middle, fewer, own⟩))
  unfold Grammar.listOf
  refine bind_finds (found start) ?_
  intro middle first own
  refine bind_finds (many_finds further middle) ?_
  intro place others row
  refine bind_finds (optional_finds (token_finds _)) ?_
  intro left comma closing
  have late : left ≤ place := by
    rcases closing with ⟨_, same⟩ | ⟨_, _, less⟩
    · exact Nat.le_of_eq same
    · exact Nat.le_of_lt less
  have early := shorter _ _ _ own
  obtain ⟨behind, each⟩ := row.each (by
    rintro first last value ⟨between, fewer, step⟩
    exact Nat.lt_trans (shorter _ _ _ step) fewer)
  refine pure_finds ⟨by omega, List.forall_mem_cons.mpr ⟨⟨start, middle, Nat.le_refl _, by omega, own⟩, ?_⟩⟩
  intro value member
  obtain ⟨first, last, inside, further, between, fewer, step⟩ := each value member
  exact ⟨between, last, by omega, by omega, step⟩

end Parser

/-! ## Places of phrases -/

structure Extent.Between (start left : Nat) (extent : Extent) : Prop where
  early : extent.ahead ≤ start
  visible : extent.left < extent.ahead
  late : left ≤ extent.left

theorem Extent.Between.widen {start left wider further : Nat} {extent : Extent}
    (between : extent.Between start left) (early : start ≤ wider) (late : further ≤ left) :
    extent.Between wider further :=
  ⟨Nat.le_trans between.early early, between.visible, Nat.le_trans late between.late⟩

/-- A part that stretches from one place to another, with its faults in between at whatever depth it is
looked at and under whatever limit. -/
structure Stretches (start left : Nat) (extent : Extent) (faults : Nat → Nat → List Fault) : Prop where
  visible : left < start
  starts : extent.ahead = start
  stops : extent.left = left
  inside : ∀ limit depth, ∀ fault ∈ faults limit depth, fault.extent.Between start left

def Operand.Fills (start left : Nat) (operand : Operand) : Prop :=
  Stretches start left operand.extent (fun limit depth => operand.faults limit depth)

def Chain.Fills (start left : Nat) (chain : Chain) : Prop :=
  Stretches start left chain.extent (fun limit depth => chain.operandFaults limit depth)

def Phrase.Fills (start left : Nat) (phrase : Phrase) : Prop :=
  Stretches start left phrase.extent (fun limit depth => phrase.faults limit depth)

theorem within_between {limit depth start left : Nat} {extent : Extent} {inner : List Fault}
    (own : extent.Between start left) (others : ∀ fault ∈ inner, fault.extent.Between start left) :
    ∀ fault ∈ within limit depth extent inner, fault.extent.Between start left := by
  unfold within
  split
  · exact List.forall_mem_singleton.mpr own
  · exact others

namespace Stretches

variable {start left wider further : Nat} {extent : Extent} {faults : Nat → Nat → List Fault}

theorem between (stretches : Stretches start left extent faults) : extent.Between start left :=
  ⟨Nat.le_of_eq stretches.starts, by rw [stretches.starts, stretches.stops]; exact stretches.visible,
    Nat.le_of_eq stretches.stops.symm⟩

/-- The faults of a part and of what is inside it lie between wider places too. -/
theorem within_wider (stretches : Stretches start left extent faults) (early : start ≤ wider)
    (late : further ≤ left) (limit depth inner : Nat) :
    ∀ fault ∈ within limit depth extent (faults limit inner), fault.extent.Between wider further :=
  within_between (stretches.between.widen early late) (fun fault member =>
    (stretches.inside limit inner fault member).widen early late)

theorem inside_wider (stretches : Stretches start left extent faults) (early : start ≤ wider)
    (late : further ≤ left) (limit depth : Nat) :
    ∀ fault ∈ faults limit depth, fault.extent.Between wider further := fun fault member =>
  (stretches.inside limit depth fault member).widen early late

end Stretches

section Parts

variable {start middle left : Nat}

theorem Operand.fills {operand : Operand} (visible : left < start) (starts : operand.extent.ahead = start)
    (stops : operand.extent.left = left) (inner : Nat → Nat → List Fault)
    (same : ∀ limit depth,
      operand.faults limit depth = within limit depth operand.extent (inner limit depth))
    (inside : ∀ limit depth, ∀ fault ∈ inner limit depth, fault.extent.Between start left) :
    operand.Fills start left := by
  refine ⟨visible, starts, stops, ?_⟩
  intro limit depth
  rw [same]
  refine within_between ⟨Nat.le_of_eq starts, ?_, Nat.le_of_eq stops.symm⟩ (inside limit depth)
  rw [starts, stops]
  exact visible

theorem Chain.final_left (chain : Chain) : chain.extent.left = chain.final.extent.left := by
  cases chain <;> rfl

theorem Operand.Fills.last {operand : Operand} (fills : operand.Fills start left) :
    (Chain.last operand).Fills start left :=
  ⟨fills.visible, fills.starts, fills.stops, fills.inside⟩

theorem Operand.Fills.join {operand : Operand} {op : BinaryOp} {rest : Chain} {place : Nat}
    (first : operand.Fills start middle) (behind : place < middle) (others : rest.Fills place left) :
    (Chain.join operand op rest).Fills start left := by
  have shorter := first.visible
  have further := others.visible
  refine ⟨by omega, first.starts, (Chain.final_left rest).symm.trans others.stops, ?_⟩
  intro limit depth
  exact List.forall_mem_append.mpr
    ⟨first.inside_wider (Nat.le_refl _) (by omega) limit depth,
      others.inside_wider (by omega) (Nat.le_refl _) limit depth⟩

theorem Chain.of_list_fills {first : Operand} {others : List (BinaryOp × Operand)}
    (fills : first.Fills start middle)
    (row : Parser.Row (fun place left next => ∃ behind, behind < place ∧ next.2.Fills behind left) middle
      others left) :
    (Chain.ofList first others).Fills start left := by
  induction others generalizing first start middle with
  | nil =>
      cases row
      exact fills.last
  | cons next others induction =>
      cases row with
      | further found later =>
          obtain ⟨behind, fewer, own⟩ := found
          exact fills.join fewer (induction own later)

end Parts

namespace Grammar

open PolicyLevers.Script.Parser

theorem identifier_finds (start : Nat) : Finds start (fun left _ => left < start) identifier := by
  have further (place : Nat) : Finds place (fun left _ => left < place) furtherWord := by
    unfold furtherWord
    refine bind_finds (token_finds _) ?_
    intro middle _ fewer
    refine bind_finds (token_finds _) ?_
    intro last _ still
    exact pure_finds (Nat.lt_trans still fewer)
  refine named_finds (bind_finds (token_finds _) ?_)
  intro middle _ fewer
  refine bind_finds (many_finds further middle) ?_
  intro left _ row
  exact pure_finds (Nat.lt_of_le_of_lt (row.each (fun _ _ _ own => own)).1 fewer)

theorem operator_finds (start : Nat) : Finds start (fun left _ => left < start) operator := by
  refine first_of_finds ?_
  intro parser member
  obtain ⟨op, _, rfl⟩ := List.mem_map.mp member
  exact named_finds (symbol_then_finds (fun left fewer => pure_finds fewer))

theorem comparison_finds (start : Nat) : Finds start (fun left _ => left < start) comparison := by
  refine first_of_finds ?_
  intro parser member
  obtain ⟨test, _, rfl⟩ := List.mem_map.mp member
  refine named_finds (symbol_then_finds ?_)
  intro left fewer
  split
  · refine bind_finds (token_finds _) ?_
    intro last _ still
    exact pure_finds (Nat.lt_trans still fewer)
  · exact pure_finds fewer

theorem reducer_finds (start : Nat) : Finds start (fun left _ => left < start) reducer := by
  refine first_of_finds ?_
  simp only [List.forall_mem_cons, List.not_mem_nil, false_implies, implies_true, and_true]
  exact ⟨keyword_then_finds (fun _ fewer => pure_finds fewer),
    keyword_then_finds (fun _ fewer => pure_finds fewer),
    keyword_then_finds (fun _ fewer => pure_finds fewer)⟩

theorem split_finds (start : Nat) : Finds start (fun left _ => left < start) split := by
  refine first_of_finds ?_
  simp only [List.forall_mem_cons, List.not_mem_nil, false_implies, implies_true, and_true]
  exact ⟨keyword_then_finds (fun _ fewer => pure_finds fewer),
    keyword_then_finds (fun _ fewer => pure_finds fewer)⟩

/-! ## Operands -/

theorem number_finds (start : Nat) : Finds start (fun left value => value.Fills start left) number := by
  rintro tokens value rest rfl reads
  cases number_reads_iff.mp reads with
  | unsigned gap text =>
      refine Operand.fills (Nat.lt_succ_self _) rfl rfl (fun _ _ => []) (fun _ _ => rfl) ?_
      simp
  | signed first mark gap text =>
      refine Operand.fills ?_ rfl rfl _ (fun _ _ => rfl) ?_
      · simp only [List.length_cons]
        omega
      · intro limit depth fault member
        split at member
        · obtain rfl := List.mem_singleton.mp member
          exact ⟨Nat.le_refl _, by dsimp only; omega, Nat.le_refl _⟩
        · cases member

theorem path_finds (start : Nat) : Finds start (fun left value => value.Fills start left) path := by
  refine ahead_finds (bind_finds (identifier_finds start) ?_)
  intro left text fewer
  refine ahead_finds (pure_finds ?_)
  exact Operand.fills fewer rfl rfl (fun _ _ => []) (fun _ _ => rfl) (by simp)

theorem lifecycle_finds (start : Nat) :
    Finds start (fun left value => value.Fills start left) lifecycle := by
  have paths := list_of_finds identifier_finds (fun _ _ _ own => own)
  refine named_finds (ahead_finds (keyword_then_finds fun first fewer => keyword_then_finds fun second
    still => symbol_then_finds fun third less => ?_))
  refine bind_finds (paths third) ?_
  rintro fourth listed ⟨behind, _⟩
  refine symbol_then_finds (fun left last => ahead_finds (pure_finds ?_))
  exact Operand.fills (by omega) rfl rfl (fun _ _ => []) (fun _ _ => rfl) (by simp)

section Nested

variable {operand : Parser Operand} {phrase : Parser Phrase}
  (operands : ∀ start, Finds start (fun left value => value.Fills start left) operand)
  (phrases : ∀ start, Finds start (fun left value => value.Fills start left) phrase)

include operands

theorem chain_finds (start : Nat) :
    Finds start (fun left value => value.Fills start left) (chain operand) := by
  have further (place : Nat) :
      Finds place (fun left next => ∃ behind, behind < place ∧ next.2.Fills behind left)
      (operator >>= fun op => operand >>= fun next => pure (op, next)) := by
    refine bind_finds (operator_finds place) ?_
    intro behind op fewer
    refine bind_finds (operands behind) ?_
    intro left next own
    exact pure_finds ⟨behind, fewer, own⟩
  refine named_finds (bind_finds (operands start) ?_)
  intro middle first own
  refine bind_finds (many_finds further middle) ?_
  intro left others row
  exact pure_finds (Chain.of_list_fills own row)

theorem uniform_finds (start : Nat) :
    Finds start (fun left value => value.Fills start left) (uniform operand) := by
  refine named_finds (ahead_finds (keyword_then_finds fun first fewer => keyword_then_finds fun second
    still => keyword_then_finds fun third less => ?_))
  refine bind_finds (chain_finds operands third) ?_
  intro fourth low lows
  refine keyword_then_finds fun fifth behind => ?_
  refine bind_finds (chain_finds operands fifth) ?_
  intro left high highs
  have lowPlace := lows.visible
  have highPlace := highs.visible
  refine ahead_finds (pure_finds (Operand.fills (by omega) rfl rfl _ (fun _ _ => rfl) ?_))
  intro limit depth
  exact List.forall_mem_append.mpr ⟨lows.within_wider (by omega) (by omega) _ _ _,
    highs.within_wider (by omega) (by omega) _ _ _⟩

theorem normal_finds (start : Nat) :
    Finds start (fun left value => value.Fills start left) (normal operand) := by
  refine named_finds (ahead_finds (keyword_then_finds fun first fewer => keyword_then_finds fun second
    still => keyword_then_finds fun third less => keyword_then_finds fun fourth lower =>
      keyword_then_finds fun fifth lowest => ?_))
  refine bind_finds (chain_finds operands fifth) ?_
  intro sixth mean means
  refine keyword_then_finds fun seventh behind => keyword_then_finds fun eighth further => ?_
  refine bind_finds (chain_finds operands eighth) ?_
  intro left deviation deviations
  have meanPlace := means.visible
  have deviationPlace := deviations.visible
  refine ahead_finds (pure_finds (Operand.fills (by omega) rfl rfl _ (fun _ _ => rfl) ?_))
  intro limit depth
  exact List.forall_mem_append.mpr ⟨means.within_wider (by omega) (by omega) _ _ _,
    deviations.within_wider (by omega) (by omega) _ _ _⟩

theorem condition_finds (start : Nat) :
    Finds start (fun left found => ∃ middle second, second ≤ middle ∧ found.1.Fills start middle ∧
      found.2.2.Fills second left) (condition operand) := by
  refine named_finds (bind_finds (chain_finds operands start) ?_)
  intro middle left lefts
  refine bind_finds (comparison_finds middle) ?_
  intro second test behind
  refine bind_finds (chain_finds operands second) ?_
  intro last right rights
  exact pure_finds ⟨middle, second, Nat.le_of_lt behind, lefts, rights⟩

include phrases

theorem repetition_finds (start : Nat) :
    Finds start (fun left value => value.Fills start left) (repetition operand phrase) := by
  refine named_finds (ahead_finds (bind_finds (reducer_finds start) ?_))
  intro first reduce fewer
  refine bind_finds (operands first) ?_
  intro second count counts
  refine keyword_then_finds fun third behind => keyword_then_finds fun fourth further => ?_
  refine bind_finds (phrases fourth) ?_
  intro left body bodies
  have countPlace := counts.visible
  have bodyPlace := bodies.visible
  refine ahead_finds (pure_finds (Operand.fills (by omega) rfl rfl _ (fun _ _ => rfl) ?_))
  intro limit depth
  exact List.forall_mem_append.mpr ⟨counts.inside_wider (by omega) (by omega) _ _,
    bodies.inside_wider (by omega) (by omega) _ _⟩

omit operands in
theorem group_finds (start : Nat) :
    Finds start (fun left value => value.Fills start left) (group phrase) := by
  refine named_finds (ahead_finds (symbol_then_finds fun first fewer => ?_))
  refine bind_finds (phrases first) ?_
  intro second body bodies
  have bodyPlace := bodies.visible
  refine symbol_then_finds fun left behind => ahead_finds (pure_finds ?_)
  refine Operand.fills (by omega) rfl rfl _ (fun _ _ => rfl) ?_
  intro limit depth
  exact bodies.inside_wider (by omega) (by omega) _ _

theorem operand_of_finds (start : Nat) :
    Finds start (fun left value => value.Fills start left) (operandOf operand phrase) := by
  refine first_of_finds ?_
  simp only [List.forall_mem_cons, List.not_mem_nil, false_implies, implies_true, and_true]
  exact ⟨number_finds start, lifecycle_finds start, uniform_finds operands start, normal_finds operands start,
    repetition_finds operands phrases start, group_finds phrases start, path_finds start⟩

theorem conditional_finds (start : Nat) :
    Finds start (fun left found => ∃ first middle second third fourth, first < start ∧ second ≤ middle ∧
      fourth < third ∧ found.1.1.Fills first middle ∧ found.1.2.2.Fills second third ∧
      found.2.Fills fourth left) (conditional operand phrase) := by
  refine named_finds (keyword_then_finds fun first fewer => ?_)
  refine bind_finds (condition_finds operands first) ?_
  rintro third test ⟨middle, second, behind, lefts, rights⟩
  refine keyword_then_finds fun fourth further => ?_
  refine bind_finds (phrases fourth) ?_
  intro left alternative others
  exact pure_finds ⟨first, middle, second, third, fourth, fewer, behind, further, lefts, rights, others⟩

theorem phrase_of_finds (start : Nat) :
    Finds start (fun left value => value.Fills start left) (phraseOf operand phrase) := by
  refine named_finds (bind_finds (chain_finds operands start) ?_)
  intro place value values
  have valuePlace := values.visible
  refine bind_finds (optional_finds (conditional_finds operands phrases place)) ?_
  rintro left _ (⟨rfl, rfl⟩ | ⟨⟨⟨former, test, latter⟩, alternative⟩, rfl, first, middle, second, third, fourth,
    fewer, behind, further, formers, latters, others⟩)
  · refine pure_finds ⟨valuePlace, values.starts, values.stops, ?_⟩
    intro limit depth
    refine within_between ?_ (values.within_wider (Nat.le_refl _) (Nat.le_refl _) _ _ _)
    exact ⟨values.between.early, values.between.visible, values.between.late⟩
  · have formerPlace := formers.visible
    have latterPlace := latters.visible
    have otherPlace := others.visible
    refine pure_finds ⟨by omega, values.starts, others.stops, ?_⟩
    intro limit depth
    refine within_between ⟨values.between.early, ?_, others.between.late⟩ ?_
    · change alternative.extent.left < value.extent.ahead
      rw [values.starts, others.stops]
      omega
    · refine List.forall_mem_append.mpr ⟨values.within_wider (Nat.le_refl _) (by omega) _ _ _, ?_⟩
      refine List.forall_mem_append.mpr ⟨formers.within_wider (by omega) (by omega) _ _ _, ?_⟩
      exact List.forall_mem_append.mpr ⟨latters.within_wider (by omega) (by omega) _ _ _,
        others.inside_wider (by omega) (Nat.le_refl _) _ _⟩

end Nested

/-- The parsers of every level find what fills its tokens. -/
theorem level_finds (depth : Nat) :
    (∀ start, Finds start (fun left value => value.Fills start left) (level depth).operand) ∧
      ∀ start, Finds start (fun left value => value.Fills start left) (level depth).phrase := by
  induction depth with
  | zero => exact ⟨fun _ => fail_finds, fun _ => fail_finds⟩
  | succ depth induction =>
      obtain ⟨operands, phrases⟩ := induction
      have outer := operand_of_finds operands phrases
      exact ⟨outer, phrase_of_finds outer phrases⟩

/-! ## Statements -/

/-- A form that takes the tokens between two places, with its faults in between. -/
structure FormFills (start left : Nat) (form : StatementForm) : Prop where
  visible : left < start
  inside : ∀ limit, ∀ fault ∈ form.faults limit, fault.extent.Between start left

section Forms

variable {start left first last : Nat}

theorem phrase_form {phrase : Phrase} (fills : phrase.Fills first left) (early : first ≤ start)
    {form : StatementForm} (same : ∀ limit, form.faults limit = phrase.faults limit 0) :
    FormFills start left form := by
  refine ⟨Nat.lt_of_lt_of_le fills.visible early, ?_⟩
  intro limit
  rw [same]
  exact fills.inside_wider early (Nat.le_refl _) limit 0

theorem chain_between {chain : Chain} (fills : chain.Fills first last) (early : first ≤ start)
    (late : left ≤ last) (limit : Nat) :
    ∀ fault ∈ chain.faults limit 0, fault.extent.Between start left :=
  fills.within_wider early late limit 0 1

theorem optional_between {γ : Type} {part : Option γ} {faults : γ → List Fault}
    (between : ∀ value ∈ part, ∀ fault ∈ faults value, fault.extent.Between start left) :
    ∀ fault ∈ part.toList.flatMap faults, fault.extent.Between start left := by
  intro fault member
  obtain ⟨value, own, inside⟩ := List.mem_flatMap.mp member
  exact between value (Option.mem_toList.mp own) fault inside

end Forms

variable (depth start : Nat)

theorem definition_finds : Finds start (FormFills start) (definition (level depth)) := by
  refine named_finds (keyword_then_finds fun first fewer => bind_finds (identifier_finds first) ?_)
  intro second name behind
  refine symbol_then_finds fun third further => bind_finds ((level_finds depth).2 third) ?_
  intro left value values
  exact pure_finds (phrase_form values (by omega) (fun _ => rfl))

theorem assignment_finds : Finds start (FormFills start) (assignment (level depth)) := by
  refine named_finds (bind_finds (identifier_finds start) ?_)
  intro first name fewer
  refine symbol_then_finds fun second behind => bind_finds ((level_finds depth).2 second) ?_
  intro left value values
  exact pure_finds (phrase_form values (by omega) (fun _ => rfl))

theorem inspect_finds : Finds start (FormFills start) (inspect (level depth)) := by
  refine named_finds (keyword_then_finds fun first fewer => ?_)
  refine bind_finds (with_text_finds ((level_finds depth).2 first)) ?_
  rintro left ⟨text, value⟩ values
  exact pure_finds (phrase_form values (by omega) (fun _ => rfl))

theorem bound_finds (part : Expectation) :
    Finds start (fun left bound => left ≤ start ∧ ∀ value ∈ bound, value.Fills start left)
      (optional (named part (level depth).phrase)) := by
  refine (optional_finds (named_finds ((level_finds depth).2 start))).mono ?_
  rintro left bound (⟨rfl, rfl⟩ | ⟨value, rfl, fills⟩)
  · exact ⟨Nat.le_refl _, nofun⟩
  · refine ⟨Nat.le_of_lt fills.visible, ?_⟩
    rintro _ ⟨⟩
    exact fills

theorem limit_finds : Finds start (FormFills start) (limit (level depth)) := by
  refine named_finds (keyword_then_finds fun first fewer => bind_finds (identifier_finds first) ?_)
  intro second target behind
  refine keyword_then_finds fun third further => symbol_then_finds fun fourth opening => ?_
  refine bind_finds (bound_finds depth fourth .lowerBound) ?_
  rintro fifth lower ⟨lowerPlace, lowers⟩
  refine symbol_then_finds fun sixth between => bind_finds (bound_finds depth sixth .upperBound) ?_
  rintro seventh upper ⟨upperPlace, uppers⟩
  refine symbol_then_finds fun left closing => pure_finds ⟨by omega, ?_⟩
  intro limit
  refine List.forall_mem_append.mpr ⟨optional_between ?_, optional_between ?_⟩
  · exact fun value own => (lowers value own).inside_wider (by omega) (by omega) limit 0
  · exact fun value own => (uppers value own).inside_wider (by omega) (by omega) limit 0

theorem target_finds : Finds start (fun left target => left < start ∧
    ∀ weight ∈ target.2, ∃ first, first ≤ start ∧ weight.Fills first left) (target (level depth)) := by
  have weighted (place : Nat) :
      Finds place (fun left weight => ∃ first, first ≤ place ∧ weight.Fills first left)
      (named .weight (keyword "by" >>= fun _ => chain (level depth).operand)) := by
    refine named_finds (keyword_then_finds fun first fewer => ?_)
    exact (chain_finds (level_finds depth).1 first).mono
      (fun _ _ fills => ⟨first, Nat.le_of_lt fewer, fills⟩)
  refine named_finds (bind_finds (identifier_finds start) ?_)
  intro middle place fewer
  refine bind_finds (optional_finds (weighted middle)) ?_
  rintro left weight (⟨rfl, rfl⟩ | ⟨value, rfl, first, early, fills⟩)
  · exact pure_finds ⟨fewer, nofun⟩
  · have visible := fills.visible
    refine pure_finds ⟨by omega, ?_⟩
    rintro _ ⟨⟩
    exact ⟨first, by omega, fills⟩

theorem distribute_finds : Finds start (FormFills start) (distribute (level depth)) := by
  refine named_finds (keyword_then_finds fun first fewer => bind_finds ((level_finds depth).2 first) ?_)
  intro second value values
  have valuePlace := values.visible
  refine keyword_then_finds fun third behind => symbol_then_finds fun fourth further => ?_
  refine bind_finds (list_of_finds (target_finds depth) (fun _ _ _ own => own.1) fourth) ?_
  rintro fifth targets ⟨targetPlace, each⟩
  refine symbol_then_finds fun sixth closing => bind_finds (split_finds sixth) ?_
  intro left how splits
  refine pure_finds ⟨by omega, ?_⟩
  intro limit
  refine List.forall_mem_append.mpr ⟨values.inside_wider (by omega) (by omega) limit 0, ?_⟩
  intro fault member
  obtain ⟨target, listed, inside⟩ := List.mem_flatMap.mp member
  obtain ⟨begins, ends, early, late, _, weights⟩ := each target listed
  refine optional_between ?_ fault inside
  intro weight own
  obtain ⟨place, within, fills⟩ := weights weight own
  exact chain_between fills (by omega) (by omega) limit

theorem change_finds : Finds start (FormFills start) (change (level depth)) := by
  have chains := chain_finds (level_finds depth).1
  refine named_finds (keyword_then_finds fun first fewer => bind_finds (identifier_finds first) ?_)
  intro second place behind
  refine keyword_then_finds fun third further => bind_finds (chains third) ?_
  intro fourth delta deltas
  have deltaPlace := deltas.visible
  refine keyword_then_finds fun fifth lower => bind_finds (chains fifth) ?_
  intro sixth begins starts
  have startPlace := starts.visible
  refine keyword_then_finds fun seventh lowest => bind_finds (chains seventh) ?_
  intro left finish finishes
  have finishPlace := finishes.visible
  refine pure_finds ⟨by omega, ?_⟩
  intro limit
  exact List.forall_mem_append.mpr ⟨chain_between deltas (by omega) (by omega) limit,
    List.forall_mem_append.mpr ⟨chain_between starts (by omega) (by omega) limit,
      chain_between finishes (by omega) (by omega) limit⟩⟩

theorem any_form_finds : Finds start (FormFills start) (anyForm (level depth)) := by
  refine first_of_finds ?_
  simp only [List.forall_mem_cons, List.not_mem_nil, false_implies, implies_true, and_true]
  exact ⟨definition_finds depth start, limit_finds depth start, distribute_finds depth start,
    change_finds depth start, inspect_finds depth start, assignment_finds depth start⟩

/-- The faults of the statements of a script lie among its tokens, each in front of a semicolon. -/
theorem faults_enclosed {tokens rest : List Lexeme} {written : List WrittenStatement}
    (found : (read tokens).outcome = some (written, rest)) :
    ∀ statement ∈ written, ∀ limit, ∀ fault ∈ statement.form.faults limit,
      fault.extent.Enclosed tokens.length := by
  intro statement member limit fault inside
  obtain ⟨middle, last, suffix, reads⟩ := read_each found statement member
  obtain ⟨gap, form, _⟩ := statement_reads reads
  have between := (any_form_finds _ _ middle statement.form _ rfl form).inside limit fault inside
  have late := between.late
  rw [List.length_cons] at late
  exact ⟨by omega, between.visible, Nat.le_trans between.early suffix.length_le⟩

end Grammar

end PolicyLevers.Script
