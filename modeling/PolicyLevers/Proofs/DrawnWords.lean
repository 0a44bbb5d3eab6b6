import PolicyLevers.Proofs.AtomicStatements

/-!
# Drawn words

A run takes words from its source one after another and leaves their sequence as it is.  So of two
sources that started out as one, the number of words taken says all.
-/

namespace PolicyLevers

set_option autoImplicit false

open PolicyLevers.Random (WordSource)

/-- A computation takes words of the source in its state and leaves their sequence alone. -/
def KeepsWords {ε σ α : Type} (source : σ → WordSource) (computation : EStateM ε σ α) : Prop :=
  ∀ start, match computation start with
    | .ok _ after => (source after).word = (source start).word
    | .error _ after => (source after).word = (source start).word

section KeepsWords

variable {ε σ α β : Type} {source : σ → WordSource}

theorem keeps_words_pure (value : α) : KeepsWords source (pure value : EStateM ε σ α) := fun _ => rfl

theorem keeps_words_throw (error : ε) : KeepsWords source (throw error : EStateM ε σ α) := fun _ => rfl

theorem KeepsWords.ok {computation : EStateM ε σ α} (keeps : KeepsWords source computation)
    {start after : σ} {value : α} (done : computation start = .ok value after) :
    (source after).word = (source start).word := by
  have kept := keeps start
  simpa only [done] using kept

theorem KeepsWords.bind {first : EStateM ε σ α} {next : α → EStateM ε σ β}
    (here : KeepsWords source first) (later : ∀ value, KeepsWords source (next value)) :
    KeepsWords source (first >>= next) := by
  intro start
  change match EStateM.bind first next start with
    | .ok _ after => (source after).word = (source start).word
    | .error _ after => (source after).word = (source start).word
  have kept := here start
  unfold EStateM.bind
  cases outcome : first start with
  | error error middle => simpa only [outcome] using kept
  | ok value middle =>
      simp only [outcome] at kept
      have onward := later value middle
      cases final : next value middle <;> simp only [final] at onward ⊢ <;> exact onward.trans kept

end KeepsWords

namespace Random

theorem uniform_draw_keeps_words {low high value : Float} {source after : WordSource}
    (drawn : Uniform.draw low high source = some (value, after)) : after.word = source.word := by
  simp only [Uniform.draw, Option.map_eq_some_iff, Prod.mk.injEq] at drawn
  obtain ⟨_, _, _, rfl⟩ := drawn
  rfl

theorem normal_tail_keeps_words {limit : Nat} {value : Float} {source after : WordSource}
    (drawn : Normal.tail limit source = some (value, after)) : after.word = source.word := by
  induction limit generalizing source with
  | zero => cases drawn
  | succ limit induction =>
      simp only [Normal.tail] at drawn
      split at drawn
      · exact (induction drawn :)
      · cases drawn
        rfl

theorem normal_standard_keeps_words {limit : Nat} {value : Float} {source after : WordSource}
    (drawn : Normal.standard limit source = some (value, after)) : after.word = source.word := by
  induction limit generalizing source with
  | zero => cases drawn
  | succ limit induction =>
      simp only [Normal.standard] at drawn
      split at drawn
      · cases drawn
        rfl
      · split at drawn
        · obtain ⟨⟨distance, rest⟩, tail, same⟩ := Option.map_eq_some_iff.mp drawn
          cases same
          exact (normal_tail_keeps_words tail :)
        · split at drawn
          · cases drawn
            rfl
          · exact (induction drawn :)

theorem normal_draw_keeps_words {mean deviation value : Float} {source after : WordSource}
    (drawn : Normal.draw mean deviation source = some (value, after)) : after.word = source.word := by
  obtain ⟨⟨point, rest⟩, standard, same⟩ := Option.map_eq_some_iff.mp drawn
  cases same
  exact normal_standard_keeps_words standard

end Random

/-! ## Evaluation -/

theorem of_except_keeps_words {α : Type} (result : Except RuntimeError α) :
    KeepsWords id (Drawing.ofExcept result) := by
  cases result with
  | ok value => exact keeps_words_pure value
  | error error => exact keeps_words_throw (Halt.failure error)

theorem of_sampler_keeps_words {α : Type} (fault : SamplerFault)
    {sample : WordSource → Option (α × WordSource)}
    (keeps : ∀ {source value after}, sample source = some (value, after) → after.word = source.word) :
    KeepsWords id (Drawing.ofSampler fault sample) := by
  intro start
  cases drawn : sample start with
  | none => simp only [Drawing.ofSampler, drawn]
  | some result =>
      simp only [Drawing.ofSampler, drawn]
      exact keeps drawn

theorem draw_uniform_keeps_words (low high : Float) : KeepsWords id (drawUniform low high) := by
  unfold drawUniform
  split
  · exact of_sampler_keeps_words _ Random.uniform_draw_keeps_words
  · exact keeps_words_throw _

theorem draw_normal_keeps_words (mean deviation : Float) : KeepsWords id (drawNormal mean deviation) := by
  unfold drawNormal
  split
  · exact of_sampler_keeps_words _ Random.normal_draw_keeps_words
  · exact keeps_words_throw _

theorem accumulate_keeps_words {body : Drawing Float} (keeps : KeepsWords id body)
    (reducer : Script.Reducer) (count : Nat) (total : Float) :
    KeepsWords id (accumulate reducer body count total) := by
  induction count generalizing total with
  | zero => exact keeps_words_pure total
  | succ count induction => exact keeps.bind (fun value => induction (reducer.step total value))

theorem evaluate_keeps_words (repeatLimit : Nat) (state : State) (expression : Expression) :
    KeepsWords id (expression.evaluate repeatLimit state) := by
  induction expression with
  | number value => exact keeps_words_pure value
  | read path => exact of_except_keeps_words (state.get path)
  | lifecycle query => exact of_except_keeps_words (query.evaluate state)
  | binary op left right leftKeeps rightKeeps =>
      exact leftKeeps.bind fun _ => rightKeeps.bind fun _ => keeps_words_pure _
  | uniform low high lowKeeps highKeeps =>
      exact lowKeeps.bind fun _ => highKeeps.bind fun _ => draw_uniform_keeps_words _ _
  | normal mean deviation meanKeeps deviationKeeps =>
      exact meanKeeps.bind fun _ => deviationKeeps.bind fun _ => draw_normal_keeps_words _ _
  | conditional test left right consequent alternative leftKeeps rightKeeps consequentKeeps
      alternativeKeeps =>
      apply leftKeeps.bind
      intro leftValue
      apply rightKeeps.bind
      intro rightValue
      split
      · exact consequentKeeps
      · exact alternativeKeeps
  | repeated reducer count body countKeeps bodyKeeps =>
      apply countKeeps.bind
      intro countValue
      cases repetitions? repeatLimit countValue with
      | none => exact keeps_words_throw _
      | some repetitions =>
          exact (accumulate_keeps_words bodyKeeps reducer repetitions reducer.start).bind
            fun _ => keeps_words_pure _

/-! ## Programs -/

namespace Running

theorem reading_keeps_words {α : Type} {read : State → Drawing α}
    (keeps : ∀ state, KeepsWords id (read state)) : KeepsWords World.source (reading read) := by
  intro world
  have kept := keeps world.state world.source
  unfold reading
  cases outcome : read world.state world.source <;> simp only [outcome, id_eq] at kept <;> exact kept

theorem writing_keeps_words (write : State → Except RuntimeError State) :
    KeepsWords World.source (writing write) := by
  intro world
  unfold writing
  cases write world.state <;> rfl

theorem compute_keeps_words (repeatLimit : Nat) (expression : Expression) :
    KeepsWords World.source (reading (fun state => expression.evaluate repeatLimit state)) :=
  reading_keeps_words fun state => evaluate_keeps_words repeatLimit state expression

theorem get_keeps_words (path : Path) : KeepsWords World.source (Running.get path) :=
  reading_keeps_words fun state => of_except_keeps_words (state.get path)

end Running

open Running

theorem evaluate_optional_keeps_words (repeatLimit : Nat) (expression : Option Expression) :
    KeepsWords World.source (evaluateOptional repeatLimit expression) := by
  cases expression with
  | none => exact keeps_words_pure none
  | some expression => exact (compute_keeps_words repeatLimit expression).bind fun _ => keeps_words_pure _

theorem weigh_keeps_words (repeatLimit : Nat) (before : Float) (weight : Option Expression) :
    KeepsWords World.source (weigh repeatLimit before weight) := by
  cases weight with
  | none => exact keeps_words_pure before
  | some weight => exact compute_keeps_words repeatLimit weight

theorem read_portions_keeps_words (repeatLimit : Nat) (targets : List (Path × Option Expression)) :
    KeepsWords World.source (readPortions repeatLimit targets) := by
  induction targets with
  | nil => exact keeps_words_pure []
  | cons target rest induction =>
      obtain ⟨path, weight⟩ := target
      rw [read_portions_cons]
      exact (get_keeps_words path).bind fun before =>
        (weigh_keeps_words repeatLimit before weight).bind fun _ =>
          induction.bind fun _ => keeps_words_pure _

theorem write_portions_keeps_words (amount : Float) (shareOf : Portion → Float)
    (portions : List Portion) : KeepsWords World.source (writePortions amount shareOf portions) := by
  induction portions with
  | nil => exact keeps_words_pure ()
  | cons portion rest induction =>
      rw [write_portions_cons]
      split
      · exact (writing_keeps_words _).bind fun _ => induction
      · exact induction

theorem instruction_keeps_words (repeatLimit : Nat) (instruction : Instruction) :
    KeepsWords World.source (instruction.run repeatLimit) := by
  cases instruction with
  | define name value =>
      exact (compute_keeps_words repeatLimit value).bind fun _ => writing_keeps_words _
  | assign target value =>
      exact (compute_keeps_words repeatLimit value).bind fun _ => writing_keeps_words _
  | limit target lower upper =>
      exact (evaluate_optional_keeps_words repeatLimit lower).bind fun _ =>
        (evaluate_optional_keeps_words repeatLimit upper).bind fun _ =>
          (get_keeps_words target).bind fun _ => writing_keeps_words _
  | distribute value targets split =>
      apply (compute_keeps_words repeatLimit value).bind
      intro amount
      split
      · exact keeps_words_pure ()
      · exact (read_portions_keeps_words repeatLimit targets).bind fun _ =>
          write_portions_keeps_words amount _ _
  | change target delta start finish =>
      apply (compute_keeps_words repeatLimit delta).bind
      intro delta
      apply (compute_keeps_words repeatLimit start).bind
      intro start
      apply (compute_keeps_words repeatLimit finish).bind
      intro finish
      split
      · apply (reading_keeps_words fun state => of_except_keeps_words state.year).bind
        intro year
        exact (get_keeps_words target).bind fun _ => writing_keeps_words _
      · exact keeps_words_throw _
  | inspect label value =>
      exact (compute_keeps_words repeatLimit value).bind fun _ => writing_keeps_words _

theorem run_keeps_words (program : Program) : KeepsWords World.source program.run := by
  unfold Program.run
  induction program.instructions with
  | nil => exact keeps_words_pure ()
  | cons instruction rest induction =>
      exact (instruction_keeps_words program.repeatLimit instruction).bind fun _ => induction

end PolicyLevers
