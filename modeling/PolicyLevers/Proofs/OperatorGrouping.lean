import Mathlib.Data.List.Basic
import PolicyLevers.Script.Chain

/-!
# Grouping by precedence

A chain of operands and operators is read as a tree that lists them in their order.  Every operator in this
tree binds tighter than the one it stands below, or as tight and on the side to which that one groups.
There is one tree of this kind for each chain: if two of them had different operators on top, each of these
would stand below the other one, on opposite sides.
-/

namespace PolicyLevers.Script

set_option autoImplicit false

def BinaryOp.binding : BinaryOp → Nat
  | .pow => 3
  | .mul => 2
  | .div => 2
  | .add => 1
  | .sub => 1

namespace BinaryOp

/-- The operator may stand below another one: it binds tighter, or as tight on a side to which the other
one groups. -/
def Below (groups : Prop) (inner outer : BinaryOp) : Prop :=
  outer.binding < inner.binding ∨ (outer.binding = inner.binding ∧ groups)

/-- May stand on the left of another operator.  Powers do not group to the left. -/
def LeftOf (inner outer : BinaryOp) : Prop := Below (outer ≠ .pow) inner outer

/-- May stand on the right of another operator.  Only powers group to the right. -/
def RightOf (inner outer : BinaryOp) : Prop := Below (outer = .pow) inner outer

theorem Below.binding_le {groups : Prop} {inner outer : BinaryOp} (below : Below groups inner outer) :
    outer.binding ≤ inner.binding := by
  rcases below with less | ⟨same, _⟩
  · exact Nat.le_of_lt less
  · exact Nat.le_of_eq same

theorem Below.tighter {groups : Prop} {inner middle outer : BinaryOp}
    (below : Below groups middle outer) (tighter : middle.binding ≤ inner.binding) :
    Below groups inner outer := by
  rcases below with less | ⟨same, allowed⟩
  · exact Or.inl (Nat.lt_of_lt_of_le less tighter)
  · rcases Nat.eq_or_lt_of_le tighter with equal | less
    · exact Or.inr ⟨same.trans equal, allowed⟩
    · exact Or.inl (same ▸ less)

/-- No two operators may stand on the left and on the right of one another. -/
theorem not_left_and_right {first second : BinaryOp} (left : first.LeftOf second)
    (right : second.RightOf first) : False := by
  have same : first.binding = second.binding := Nat.le_antisymm right.binding_le left.binding_le
  rcases left with less | ⟨_, noPower⟩
  · omega
  · rcases right with less | ⟨_, rfl⟩
    · omega
    · cases second <;> simp [binding] at same noPower

end BinaryOp

/-! ## Trees -/

inductive OperatorTree (α : Type) where
  | operand (value : α)
  | joined (op : BinaryOp) (left right : OperatorTree α)
  deriving Repr

namespace OperatorTree

variable {α : Type}

def listed : OperatorTree α → Joined α
  | operand value => ⟨value, []⟩
  | joined op left right =>
    ⟨left.listed.first, left.listed.others ++ (op, right.listed.first) :: right.listed.others⟩

def top? : OperatorTree α → Option BinaryOp
  | operand _ => none
  | joined op _ _ => some op

/-- No operator stands where it may not. -/
def Grouped : OperatorTree α → Prop
  | operand _ => True
  | joined op left right => left.Grouped ∧ right.Grouped ∧
    (∀ inner ∈ left.top?, inner.LeftOf op) ∧ ∀ inner ∈ right.top?, inner.RightOf op

def toExpr (value : α → Expr) : OperatorTree α → Expr
  | operand leaf => value leaf
  | joined op left right => .binary op (left.toExpr value) (right.toExpr value)

def operators (tree : OperatorTree α) : List BinaryOp := tree.listed.others.map Prod.fst

theorem operators_joined (op : BinaryOp) (left right : OperatorTree α) :
    (joined op left right).operators = left.operators ++ op :: right.operators := by
  simp [operators, listed]

/-! ## One tree for each chain -/

theorem operators_tighter {tree : OperatorTree α} (grouped : tree.Grouped) {least : Nat}
    (bound : ∀ top ∈ tree.top?, least ≤ top.binding) :
    ∀ inner ∈ tree.operators, least ≤ inner.binding := by
  induction tree with
  | operand value => simp [operators, listed]
  | joined op left right leftInduction rightInduction =>
      obtain ⟨leftGrouped, rightGrouped, lefts, rights⟩ := grouped
      have here := bound op rfl
      rw [operators_joined]
      intro inner member
      rcases List.mem_append.mp member with inLeft | inRight
      · exact leftInduction leftGrouped
          (fun top onTop => Nat.le_trans here (lefts top onTop).binding_le) inner inLeft
      · rcases List.mem_cons.mp inRight with rfl | inRight
        · exact here
        · exact rightInduction rightGrouped
            (fun top onTop => Nat.le_trans here (rights top onTop).binding_le) inner inRight

theorem operators_below {groups : Prop} {tree : OperatorTree α} {outer : BinaryOp}
    (grouped : tree.Grouped) (below : ∀ top ∈ tree.top?, BinaryOp.Below groups top outer) :
    ∀ inner ∈ tree.operators, BinaryOp.Below groups inner outer := by
  cases tree with
  | operand value => simp [operators, listed]
  | joined op left right =>
      intro inner member
      have tighter : op.binding ≤ inner.binding :=
        operators_tighter grouped (by rintro _ ⟨⟩; exact Nat.le_refl _) inner member
      exact (below op rfl).tighter tighter

/-- In two trees that list the same, the left side of the one is no shorter than that of the other. -/
theorem left_not_shorter {op other : BinaryOp} {left right otherLeft otherRight : OperatorTree α}
    (grouped : (joined op left right).Grouped) (otherGrouped : (joined other otherLeft otherRight).Grouped)
    (same : (joined op left right).operators = (joined other otherLeft otherRight).operators) :
    otherLeft.operators.length ≤ left.operators.length := by
  by_contra shorter
  rw [operators_joined, operators_joined] at same
  -- the shorter side ends inside the longer one, so each top stands on one side of the other
  rcases List.append_eq_append_iff.mp same with ⟨between, longer, rest⟩ | ⟨between, longer, _⟩
  · cases between with
    | nil => simp [longer] at shorter
    | cons first more =>
        obtain ⟨rfl, behind⟩ := List.cons.inj rest
        obtain ⟨_, rightGrouped, _, rights⟩ := grouped
        obtain ⟨leftGrouped, _, lefts, _⟩ := otherGrouped
        have inLeft := operators_below leftGrouped lefts op (by simp [longer])
        have inRight := operators_below rightGrouped rights other (by simp [behind])
        exact BinaryOp.not_left_and_right inLeft inRight
  · simp [longer] at shorter

/-- A chain is listed by one grouped tree at most. -/
theorem grouped_unique {tree other : OperatorTree α} (grouped : tree.Grouped)
    (otherGrouped : other.Grouped) (same : tree.listed = other.listed) : tree = other := by
  induction tree generalizing other with
  | operand value =>
      cases other with
      | operand => exact congrArg operand (congrArg Joined.first same)
      | joined => simp [listed] at same
  | joined op left right leftInduction rightInduction =>
      cases other with
      | operand => simp [listed] at same
      | joined otherOp otherLeft otherRight =>
          have operators := congrArg (fun chain => chain.others.map Prod.fst) same
          have length : left.listed.others.length = otherLeft.listed.others.length := by
            have atLeast := left_not_shorter grouped otherGrouped operators
            have atMost := left_not_shorter otherGrouped grouped operators.symm
            simp only [OperatorTree.operators, List.length_map] at atLeast atMost
            omega
          obtain ⟨leftGrouped, rightGrouped, _⟩ := grouped
          obtain ⟨otherLeftGrouped, otherRightGrouped, _⟩ := otherGrouped
          obtain ⟨first, others⟩ := Joined.mk.inj same
          obtain ⟨lefts, rights⟩ := List.append_inj others length
          obtain ⟨here, behind⟩ := List.cons.inj rights
          obtain ⟨rfl, second⟩ := Prod.mk.inj here
          rw [leftInduction leftGrouped otherLeftGrouped (Joined.mk.injEq .. ▸ ⟨first, lefts⟩),
            rightInduction rightGrouped otherRightGrouped (Joined.mk.injEq .. ▸ ⟨second, behind⟩)]

end OperatorTree

/-! ## Chains cut into chains -/

namespace Joined

variable {α β : Type}

def flatten (chains : Joined (Joined α)) : Joined α :=
  ⟨chains.first.first, chains.first.others ++
    chains.others.flatMap (fun (op, chain) => (op, chain.first) :: chain.others)⟩

def parts (chain : Joined α) : List α := chain.first :: chain.others.map Prod.snd

def operators (chain : Joined α) : List BinaryOp := chain.others.map Prod.fst

theorem map_parts (change : α → β) (chain : Joined α) :
    (chain.map change).parts = chain.parts.map change := by
  simp [parts, map]

theorem map_operators (change : α → β) (chain : Joined α) :
    (chain.map change).operators = chain.operators := by
  simp [operators, map]

theorem map_id (chain : Joined α) : chain.map id = chain := by
  simp [map]

theorem map_map {γ : Type} (change : α → β) (further : β → γ) (chain : Joined α) :
    (chain.map change).map further = chain.map (further ∘ change) := by
  simp [map]

theorem flatten_cut (cuts : BinaryOp → Bool) (first : α) (others : List (BinaryOp × α)) :
    (cutAt cuts first others).flatten = ⟨first, others⟩ := by
  induction others generalizing first with
  | nil => rfl
  | cons next rest induction =>
      obtain ⟨op, operand⟩ := next
      obtain ⟨head, tail⟩ := Joined.mk.inj (induction operand)
      by_cases cut : cuts op = true
      · simp only [cutAt, cut, if_true, flatten, List.flatMap_cons, List.nil_append, List.cons_append]
        rw [head, tail]
      · simp only [cutAt, cut, if_false, Bool.false_eq_true, flatten, List.cons_append]
        rw [head, tail]

theorem cut_operators (cuts : BinaryOp → Bool) (first : α) (others : List (BinaryOp × α)) :
    (cutAt cuts first others).operators = (others.map Prod.fst).filter cuts := by
  induction others generalizing first with
  | nil => rfl
  | cons next rest induction =>
      obtain ⟨op, operand⟩ := next
      have behind := induction operand
      unfold operators at behind ⊢
      by_cases cut : cuts op = true <;> simp [cutAt, cut, behind]

theorem part_operators (cuts : BinaryOp → Bool) (first : α) (others : List (BinaryOp × α)) :
    ∀ part ∈ (cutAt cuts first others).parts, ∀ op ∈ part.operators,
      cuts op = false ∧ op ∈ others.map Prod.fst := by
  induction others generalizing first with
  | nil => simp [cutAt, parts, operators]
  | cons next rest induction =>
      obtain ⟨op, operand⟩ := next
      have behind : ∀ part ∈ (cutAt cuts operand rest).parts, ∀ inner ∈ part.operators,
          cuts inner = false ∧ inner ∈ op :: rest.map Prod.fst :=
        fun part inside inner member =>
          (induction operand part inside inner member).imp_right (List.mem_cons_of_mem op)
      simp only [parts, List.forall_mem_cons] at behind ⊢
      obtain ⟨head, tail⟩ := behind
      -- an operator at which the chain is cut ends the first part, any other one goes on with it
      by_cases cut : cuts op = true
      · simp only [cutAt, cut, if_true, operators, List.map_nil, List.not_mem_nil, List.map_cons,
          List.forall_mem_cons]
        exact ⟨nofun, head, tail⟩
      · simp only [cutAt, cut, if_false, Bool.false_eq_true, operators, List.map_cons,
          List.forall_mem_cons]
        exact ⟨⟨⟨trivial, List.mem_cons_self⟩, head⟩, tail⟩

theorem cut_map (change : α → β) (cuts : BinaryOp → Bool) (first : α)
    (others : List (BinaryOp × α)) :
    cutAt cuts (change first) (others.map (fun (op, operand) => (op, change operand))) =
      (cutAt cuts first others).map (Joined.map change) := by
  induction others generalizing first with
  | nil => rfl
  | cons next rest induction =>
      obtain ⟨op, operand⟩ := next
      have behind := induction operand
      by_cases cut : cuts op = true <;> simp [cutAt, cut, behind, Joined.map]

end Joined

/-! ## The tree of a chain -/

namespace OperatorTree

variable {α : Type}

def joinLeft (chain : Joined (OperatorTree α)) : OperatorTree α :=
  chain.others.foldl (fun left (op, right) => .joined op left right) chain.first

def joinRight (first : α) : List (BinaryOp × α) → OperatorTree α
  | [] => .operand first
  | (op, next) :: rest => .joined op (.operand first) (joinRight next rest)

def ofProduct (chain : Joined α) : OperatorTree α :=
  joinLeft ((Joined.cutAt Expr.isMultiplicative chain.first chain.others).map
    (fun powers => joinRight powers.first powers.others))

def ofChain (chain : Joined α) : OperatorTree α :=
  joinLeft ((Joined.cutAt Expr.isAdditive chain.first chain.others).map ofProduct)

theorem join_right_listed (first : α) (others : List (BinaryOp × α)) :
    (joinRight first others).listed = ⟨first, others⟩ := by
  induction others generalizing first with
  | nil => rfl
  | cons next rest induction =>
      obtain ⟨op, operand⟩ := next
      rw [joinRight, listed, induction]
      rfl

theorem join_left_listed (chain : Joined (OperatorTree α)) :
    (joinLeft chain).listed = (chain.map listed).flatten := by
  obtain ⟨first, others⟩ := chain
  unfold joinLeft
  dsimp only
  induction others generalizing first with
  | nil => simp [Joined.map, Joined.flatten]
  | cons next rest induction =>
      obtain ⟨op, right⟩ := next
      rw [List.foldl_cons, induction]
      simp [Joined.map, Joined.flatten, listed]

theorem cut_listed {join : Joined α → OperatorTree α} (cuts : BinaryOp → Bool) (chain : Joined α)
    (same : ∀ part, (join part).listed = part) :
    (joinLeft ((Joined.cutAt cuts chain.first chain.others).map join)).listed = chain := by
  have parts : listed ∘ join = id := funext same
  rw [join_left_listed, Joined.map_map, parts, Joined.map_id, Joined.flatten_cut]

theorem of_product_listed (chain : Joined α) : (ofProduct chain).listed = chain :=
  cut_listed Expr.isMultiplicative chain (fun powers => join_right_listed powers.first powers.others)

/-- The tree of a chain lists what stands in the chain. -/
theorem of_chain_listed (chain : Joined α) : (ofChain chain).listed = chain :=
  cut_listed Expr.isAdditive chain of_product_listed

/-! ## It is grouped -/

theorem top_is_listed {tree : OperatorTree α} {top : BinaryOp} (onTop : tree.top? = some top) :
    top ∈ tree.operators := by
  cases tree with
  | operand value => cases onTop
  | joined op left right =>
      obtain rfl : op = top := Option.some.inj onTop
      simp [operators_joined]

theorem join_right_grouped (first : α) (others : List (BinaryOp × α))
    (powers : ∀ op ∈ others.map Prod.fst, op = .pow) : (joinRight first others).Grouped := by
  induction others generalizing first with
  | nil => trivial
  | cons next rest induction =>
      obtain ⟨op, operand⟩ := next
      obtain ⟨rfl, later⟩ := List.forall_mem_cons.mp powers
      refine ⟨trivial, induction operand later, nofun, ?_⟩
      intro inner onTop
      have member := top_is_listed onTop
      rw [operators, join_right_listed] at member
      exact Or.inr ⟨by rw [later inner member], rfl⟩

/-- Trees that bind tighter may be joined to the left by operators that are no powers. -/
theorem join_left_grouped {chain : Joined (OperatorTree α)} {binding : Nat}
    (grouped : ∀ part ∈ chain.parts, part.Grouped ∧ ∀ top ∈ part.top?, binding < top.binding)
    (same : ∀ op ∈ chain.operators, op.binding = binding ∧ op ≠ .pow) :
    (joinLeft chain).Grouped ∧ ∀ top ∈ (joinLeft chain).top?, binding ≤ top.binding := by
  obtain ⟨first, others⟩ := chain
  obtain ⟨⟨firstGrouped, tighter⟩, otherGrouped⟩ := List.forall_mem_cons.mp grouped
  have least : ∀ top ∈ first.top?, binding ≤ top.binding :=
    fun top onTop => Nat.le_of_lt (tighter top onTop)
  clear grouped tighter
  unfold joinLeft
  dsimp only [Joined.operators] at same otherGrouped ⊢
  -- what has been joined so far may have an operator of the same kind on top
  induction others generalizing first with
  | nil => exact ⟨firstGrouped, least⟩
  | cons next rest induction =>
      obtain ⟨op, right⟩ := next
      obtain ⟨⟨equal, noPower⟩, later⟩ := List.forall_mem_cons.mp same
      obtain ⟨⟨rightGrouped, rightTighter⟩, laterGrouped⟩ := List.forall_mem_cons.mp otherGrouped
      have lefts : ∀ inner ∈ first.top?, inner.LeftOf op := by
        intro inner onTop
        rcases Nat.eq_or_lt_of_le (least inner onTop) with level | above
        · exact Or.inr ⟨equal.trans level, noPower⟩
        · exact Or.inl (equal ▸ above)
      have rights : ∀ inner ∈ right.top?, inner.RightOf op :=
        fun inner onTop => Or.inl (equal ▸ rightTighter inner onTop)
      have joinedLeast : ∀ top ∈ (joined op first right).top?, binding ≤ top.binding := by
        rintro _ ⟨⟩
        exact Nat.le_of_eq equal.symm
      exact induction (joined op first right) later laterGrouped
        ⟨firstGrouped, rightGrouped, lefts, rights⟩ joinedLeast

/-- Chains cut at operators of one kind, each part joined to a grouped tree that binds tighter. -/
theorem cut_grouped {join : Joined α → OperatorTree α} {cuts : BinaryOp → Bool} {binding : Nat}
    (chain : Joined α) (kind : ∀ op, cuts op = true → op.binding = binding ∧ op ≠ .pow)
    (parts : ∀ part ∈ (Joined.cutAt cuts chain.first chain.others).parts,
      (join part).Grouped ∧ ∀ top ∈ (join part).top?, binding < top.binding) :
    (joinLeft ((Joined.cutAt cuts chain.first chain.others).map join)).Grouped ∧
      ∀ top ∈ (joinLeft ((Joined.cutAt cuts chain.first chain.others).map join)).top?,
        binding ≤ top.binding := by
  have operators := Joined.cut_operators cuts chain.first chain.others
  generalize Joined.cutAt cuts chain.first chain.others = cut at operators parts
  apply join_left_grouped
  · intro tree member
    rw [Joined.map_parts] at member
    obtain ⟨part, inside, rfl⟩ := List.mem_map.mp member
    exact parts part inside
  · intro op member
    rw [Joined.map_operators, operators] at member
    exact kind op (List.mem_filter.mp member).2

theorem of_product_grouped {chain : Joined α}
    (product : ∀ op ∈ chain.operators, Expr.isAdditive op = false) :
    (ofProduct chain).Grouped ∧ ∀ top ∈ (ofProduct chain).top?, 2 ≤ top.binding := by
  have kind (op : BinaryOp) (factors : Expr.isMultiplicative op = true) :
      op.binding = 2 ∧ op ≠ .pow := by
    cases op <;> simp_all [Expr.isMultiplicative, BinaryOp.binding]
  apply cut_grouped chain kind
  intro part inside
  have powers : ∀ op ∈ part.operators, op = .pow := by
    intro op member
    obtain ⟨noFactor, listed⟩ := Joined.part_operators _ _ _ part inside op member
    have noTerm := product op listed
    cases op <;> simp_all [Expr.isMultiplicative, Expr.isAdditive]
  refine ⟨join_right_grouped part.first part.others powers, ?_⟩
  intro top onTop
  have member := top_is_listed onTop
  rw [operators, join_right_listed] at member
  rw [powers top member]
  decide

theorem of_chain_grouped (chain : Joined α) : (ofChain chain).Grouped := by
  have kind (op : BinaryOp) (terms : Expr.isAdditive op = true) : op.binding = 1 ∧ op ≠ .pow := by
    cases op <;> simp_all [Expr.isAdditive, BinaryOp.binding]
  refine (cut_grouped chain kind ?_).1
  intro part inside
  exact of_product_grouped (fun op member =>
    (Joined.part_operators _ _ _ part inside op member).1)

/-! ## It is what the chain is read as -/

theorem join_right_to_expr (value : α → Expr) (first : α) (others : List (BinaryOp × α)) :
    (joinRight first others).toExpr value =
      Expr.groupRight (value first) (others.map (fun (op, leaf) => (op, value leaf))) := by
  induction others generalizing first with
  | nil => rfl
  | cons next rest induction =>
      exact congrArg (Expr.binary next.1 (value first)) (induction next.2)

theorem join_left_to_expr (value : α → Expr) (chain : Joined (OperatorTree α)) :
    (joinLeft chain).toExpr value = Expr.groupLeft (chain.map (toExpr value)) := by
  obtain ⟨first, others⟩ := chain
  unfold joinLeft Expr.groupLeft Joined.map
  dsimp only
  induction others generalizing first with
  | nil => rfl
  | cons next rest induction => exact induction (.joined next.1 first next.2)

theorem cut_to_expr (value : α → Expr) {join : Joined α → OperatorTree α} {read : Joined Expr → Expr}
    (cuts : BinaryOp → Bool) (chain : Joined α)
    (same : ∀ part, (join part).toExpr value = read (part.map value)) :
    (joinLeft ((Joined.cutAt cuts chain.first chain.others).map join)).toExpr value =
      Expr.groupLeft ((Joined.cutAt cuts (chain.map value).first (chain.map value).others).map read) := by
  have parts : toExpr value ∘ join = read ∘ Joined.map value := funext same
  have cut := Joined.cut_map value cuts chain.first chain.others
  calc (joinLeft ((Joined.cutAt cuts chain.first chain.others).map join)).toExpr value
      = Expr.groupLeft ((Joined.cutAt cuts chain.first chain.others).map (toExpr value ∘ join)) := by
        rw [join_left_to_expr, Joined.map_map]
    _ = Expr.groupLeft
          (((Joined.cutAt cuts chain.first chain.others).map (Joined.map value)).map read) := by
        rw [parts, Joined.map_map]
    _ = Expr.groupLeft
          ((Joined.cutAt cuts (chain.map value).first (chain.map value).others).map read) := by
        rw [← cut]
        rfl

theorem of_product_to_expr (value : α → Expr) (chain : Joined α) :
    (ofProduct chain).toExpr value = Expr.ofProduct (chain.map value) :=
  cut_to_expr value Expr.isMultiplicative chain
    (fun powers => join_right_to_expr value powers.first powers.others)

/-- The tree of a chain is the expression that the chain is read as. -/
theorem of_chain_to_expr (value : α → Expr) (chain : Joined α) :
    (ofChain chain).toExpr value = Expr.ofChain (chain.map value) :=
  cut_to_expr value Expr.isAdditive chain (of_product_to_expr value)

end OperatorTree

end PolicyLevers.Script
