import PolicyLevers.Proofs.NestingHeight

/-!
# The numbers of a phrase

Numbers are the only parts of a phrase whose text can be broken.  So a phrase is free of faults when each
of its numbers is whole and the nesting limit reaches its height, and a fault that is not one of nesting
lies at a number.
-/

namespace PolicyLevers.Script

set_option autoImplicit false

mutual

def Operand.numbers : Operand → List Operand
  | .number extent sign digits => [.number extent sign digits]
  | .path _ _ => []
  | .lifecycle _ _ => []
  | .uniform _ low high => low.numbers ++ high.numbers
  | .normal _ mean deviation => mean.numbers ++ deviation.numbers
  | .repeated _ _ count body => count.numbers ++ body.numbers
  | .group _ body => body.numbers

def Chain.numbers : Chain → List Operand
  | .last operand => operand.numbers
  | .join operand _ rest => operand.numbers ++ rest.numbers

def Phrase.numbers : Phrase → List Operand
  | .plain value => value.numbers
  | .conditional value left _ right alternative =>
    value.numbers ++ (left.numbers ++ (right.numbers ++ alternative.numbers))

end

def StatementForm.numbers : StatementForm → List Operand
  | .definition _ value => value.numbers
  | .assignment _ value => value.numbers
  | .limit _ lower upper => lower.toList.flatMap Phrase.numbers ++ upper.toList.flatMap Phrase.numbers
  | .distribute value targets _ =>
    value.numbers ++ targets.flatMap (fun target => target.2.toList.flatMap Chain.numbers)
  | .change _ delta start finish => delta.numbers ++ (start.numbers ++ finish.numbers)
  | .inspect _ value => value.numbers

/-! ## Whole numbers -/

mutual

theorem Operand.unbroken_iff : ∀ operand : Operand,
    operand.Unbroken ↔ ∀ number ∈ operand.numbers, number.Unbroken
  | .number extent sign digits => by simp [Operand.numbers]
  | .path extent text => by simp [Operand.numbers, Operand.Unbroken]
  | .lifecycle extent paths => by simp [Operand.numbers, Operand.Unbroken]
  | .uniform extent low high => by
      simp only [Operand.numbers, Operand.Unbroken, List.forall_mem_append, Chain.unbroken_iff low,
        Chain.unbroken_iff high]
  | .normal extent mean deviation => by
      simp only [Operand.numbers, Operand.Unbroken, List.forall_mem_append, Chain.unbroken_iff mean,
        Chain.unbroken_iff deviation]
  | .repeated extent reducer count body => by
      simp only [Operand.numbers, Operand.Unbroken, List.forall_mem_append, Operand.unbroken_iff count,
        Phrase.unbroken_iff body]
  | .group extent body => by
      simp only [Operand.numbers, Operand.Unbroken, Phrase.unbroken_iff body]

theorem Chain.unbroken_iff : ∀ chain : Chain,
    chain.Unbroken ↔ ∀ number ∈ chain.numbers, number.Unbroken
  | .last operand => by
      simp only [Chain.numbers, Chain.Unbroken, Operand.unbroken_iff operand]
  | .join operand op rest => by
      simp only [Chain.numbers, Chain.Unbroken, List.forall_mem_append, Operand.unbroken_iff operand,
        Chain.unbroken_iff rest]

theorem Phrase.unbroken_iff : ∀ phrase : Phrase,
    phrase.Unbroken ↔ ∀ number ∈ phrase.numbers, number.Unbroken
  | .plain value => by
      simp only [Phrase.numbers, Phrase.Unbroken, Chain.unbroken_iff value]
  | .conditional value left test right alternative => by
      simp only [Phrase.numbers, Phrase.Unbroken, List.forall_mem_append, Chain.unbroken_iff value,
        Chain.unbroken_iff left, Chain.unbroken_iff right, Phrase.unbroken_iff alternative]

end

theorem StatementForm.unbroken_iff (form : StatementForm) :
    form.Unbroken ↔ ∀ number ∈ form.numbers, number.Unbroken := by
  cases form with
  | definition name value => exact Phrase.unbroken_iff value
  | assignment target value => exact Phrase.unbroken_iff value
  | limit target lower upper =>
      simp only [Unbroken, numbers, List.forall_mem_append, List.forall_mem_flatMap, Option.mem_toList,
        Option.mem_def, Phrase.unbroken_iff]
  | distribute value targets split =>
      simp only [Unbroken, numbers, List.forall_mem_append, List.forall_mem_flatMap, Option.mem_toList,
        Option.mem_def, Phrase.unbroken_iff, Chain.unbroken_iff]
  | change target delta start finish =>
      simp only [Unbroken, numbers, List.forall_mem_append, Chain.unbroken_iff]
  | inspect label value => exact Phrase.unbroken_iff value

/-! ## Faults -/

/-- Nests too deeply, or is a number of the list that is not whole. -/
def Fault.Explained (limit : Nat) (numbers : List Operand) (fault : Fault) : Prop :=
  fault.kind = .tooDeep limit ∨
    fault.kind = .brokenNumber ∧ ∃ number ∈ numbers, number.extent = fault.extent ∧ ¬number.Unbroken

theorem within_explained {limit depth : Nat} {extent : Extent} {inner : List Fault}
    {numbers : List Operand} (explained : ∀ fault ∈ inner, fault.Explained limit numbers) :
    ∀ fault ∈ within limit depth extent inner, fault.Explained limit numbers := by
  unfold within
  split
  · intro fault member
    rw [List.mem_singleton.mp member]
    exact Or.inl rfl
  · exact explained

theorem append_explained {limit : Nat} {first second : List Fault} {numbers others : List Operand}
    (firsts : ∀ fault ∈ first, fault.Explained limit numbers)
    (seconds : ∀ fault ∈ second, fault.Explained limit others) :
    ∀ fault ∈ first ++ second, fault.Explained limit (numbers ++ others) := by
  intro fault member
  rcases List.mem_append.mp member with member | member
  · rcases firsts fault member with deep | ⟨broken, number, inside, place⟩
    · exact Or.inl deep
    · exact Or.inr ⟨broken, number, List.mem_append_left _ inside, place⟩
  · rcases seconds fault member with deep | ⟨broken, number, inside, place⟩
    · exact Or.inl deep
    · exact Or.inr ⟨broken, number, List.mem_append_right _ inside, place⟩

mutual

theorem Operand.faults_explained (limit depth : Nat) : ∀ operand : Operand,
    ∀ fault ∈ operand.faults limit depth, fault.Explained limit operand.numbers
  | .number extent sign digits => by
      apply within_explained
      intro fault member
      split at member
      · rename_i broken
        rw [List.mem_singleton.mp member]
        refine Or.inr ⟨rfl, _, List.mem_singleton_self _, rfl, ?_⟩
        intro whole
        obtain ⟨⟨c, gap⟩, mark, comment⟩ := (Option.any_eq_true _ _).mp broken
        exact whole _ mark (by simpa using comment)
      · cases member
  | .path extent text => within_explained (fun fault member => by cases member)
  | .lifecycle extent paths => within_explained (fun fault member => by cases member)
  | .uniform extent low high =>
      within_explained (append_explained
        (within_explained (Chain.operand_faults_explained limit _ low))
        (within_explained (Chain.operand_faults_explained limit _ high)))
  | .normal extent mean deviation =>
      within_explained (append_explained
        (within_explained (Chain.operand_faults_explained limit _ mean))
        (within_explained (Chain.operand_faults_explained limit _ deviation)))
  | .repeated extent reducer count body =>
      within_explained (append_explained (Operand.faults_explained limit _ count)
        (Phrase.faults_explained limit _ body))
  | .group extent body => within_explained (Phrase.faults_explained limit _ body)

theorem Chain.operand_faults_explained (limit depth : Nat) : ∀ chain : Chain,
    ∀ fault ∈ chain.operandFaults limit depth, fault.Explained limit chain.numbers
  | .last operand => Operand.faults_explained limit depth operand
  | .join operand _ rest =>
      append_explained (Operand.faults_explained limit depth operand)
        (Chain.operand_faults_explained limit depth rest)

theorem Phrase.faults_explained (limit depth : Nat) : ∀ phrase : Phrase,
    ∀ fault ∈ phrase.faults limit depth, fault.Explained limit phrase.numbers
  | .plain value =>
      within_explained (within_explained (Chain.operand_faults_explained limit _ value))
  | .conditional value left _ right alternative =>
      within_explained (append_explained
        (within_explained (Chain.operand_faults_explained limit _ value))
        (append_explained (within_explained (Chain.operand_faults_explained limit _ left))
          (append_explained (within_explained (Chain.operand_faults_explained limit _ right))
            (Phrase.faults_explained limit _ alternative))))

end

theorem Chain.faults_explained (limit depth : Nat) (chain : Chain) :
    ∀ fault ∈ chain.faults limit depth, fault.Explained limit chain.numbers :=
  within_explained (Chain.operand_faults_explained limit _ chain)

theorem flat_map_explained {α : Type} {limit : Nat} {parts : List α} {faults : α → List Fault}
    {numbers : α → List Operand}
    (explained : ∀ part ∈ parts, ∀ fault ∈ faults part, fault.Explained limit (numbers part)) :
    ∀ fault ∈ parts.flatMap faults, fault.Explained limit (parts.flatMap numbers) := by
  induction parts with
  | nil =>
      intro fault member
      cases member
  | cons part parts induction =>
      rw [List.flatMap_cons, List.flatMap_cons]
      exact append_explained (explained part List.mem_cons_self)
        (induction (fun other member => explained other (List.mem_cons_of_mem _ member)))

/-- A fault of a statement is one of nesting or lies at a number that is not whole. -/
theorem StatementForm.faults_explained (limit : Nat) (form : StatementForm) :
    ∀ fault ∈ form.faults limit, fault.Explained limit form.numbers := by
  cases form with
  | definition name value => exact Phrase.faults_explained limit 0 value
  | assignment target value => exact Phrase.faults_explained limit 0 value
  | limit target lower upper =>
      exact append_explained (flat_map_explained (fun part _ => Phrase.faults_explained limit 0 part))
        (flat_map_explained (fun part _ => Phrase.faults_explained limit 0 part))
  | distribute value targets split =>
      exact append_explained (Phrase.faults_explained limit 0 value)
        (flat_map_explained (fun target _ =>
          flat_map_explained (fun part _ => Chain.faults_explained limit 0 part)))
  | change target delta start finish =>
      exact append_explained (Chain.faults_explained limit 0 delta)
        (append_explained (Chain.faults_explained limit 0 start)
          (Chain.faults_explained limit 0 finish))
  | inspect label value => exact Phrase.faults_explained limit 0 value

end PolicyLevers.Script
