import Mathlib.Data.String.Basic
import PolicyLevers.Program.Compile
import PolicyLevers.Program.Run
import PolicyLevers.Proofs.JoinedScans
import PolicyLevers.Proofs.JoinedTokens

/-!
# Scripts one behind the other

Two scripts with a line break between them are one script: its statements are those of the first and then
those of the second, each at its place in the whole.  Running it is running the first and, if nothing
failed, the second in the world that the first left, variables included.
-/

namespace PolicyLevers

set_option autoImplicit false

namespace Script

/-! ## Reading -/

def Statement.shift (count : Nat) (statement : Statement) : Statement :=
  { statement with span := statement.span.shift count }

/-- What `parse` makes of a statement that the grammar found in a scanned text. -/
def WrittenStatement.placed (scanned : Scan) (written : WrittenStatement) : Statement :=
  ⟨(Offsets.ofScan scanned).span written.extent, written.form.toKind⟩

theorem parse_ok_iff {limit : Nat} {source : String} {statements : List Statement} :
    parse limit source = .ok statements ↔
      ∃ written, (Grammar.read (scan source.toList).lexemes).outcome = some (written, []) ∧
        (∀ statement ∈ written, statement.form.faults limit = []) ∧
        statements = written.map (WrittenStatement.placed (scan source.toList)) := by
  unfold parse
  dsimp only
  cases found : (Grammar.read (scan source.toList).lexemes).outcome with
  | none => simp
  | some result =>
      obtain ⟨written, rest⟩ := result
      obtain ⟨rfl, _⟩ := Grammar.read_some_iff.mp found
      simp only [Option.some.injEq, Prod.mk.injEq, and_true, exists_eq_left', ← List.flatMap_eq_nil_iff]
      cases faults : written.flatMap (fun statement => statement.form.faults limit) with
      | nil =>
          simp only [Except.ok.injEq, true_and]
          exact eq_comm
      | cons fault faults => simp

theorem utf8_bytes (text : String) : Text.bytes text.toList = text.utf8ByteSize := by
  rw [← String.utf8Len_toList]
  induction text.toList with
  | nil => rfl
  | cons c rest induction =>
      rw [String.utf8Len_cons, ← induction, Nat.add_comm]
      rfl

theorem read_behind (front : List Char) (scanned : Scan) :
    (Grammar.read (scanned.behind front).lexemes).outcome = (Grammar.read scanned.lexemes).outcome := by
  obtain ⟨pieces, trailing⟩ := scanned
  cases pieces with
  | nil => rfl
  | cons piece pieces => exact Grammar.read_first_gap _ _ piece.token _

section Joined

variable {first : List Char} {written : List WrittenStatement}
  (found : (Grammar.read (scan first).lexemes).outcome = some (written, []))

include found

/-- The whole is read as the first text and then the second. -/
theorem read_line (second : List Char) :
    (Grammar.read (scan (first ++ '\n' :: second)).lexemes).outcome =
      (Grammar.read (scan second).lexemes).outcome.map (fun (others, rest) =>
        (written.map (WrittenStatement.move (scan second).pieces.length) ++ others, rest)) := by
  rw [lexemes_line, Grammar.read_append _ found, scanAfter, lexemes_behind_length, read_behind]

theorem placed_line {second : List Char} {others rest : _}
    (behind : (Grammar.read (scan second).lexemes).outcome = some (others, rest)) :
    (written.map (WrittenStatement.move (scan second).pieces.length) ++ others).map
        (WrittenStatement.placed (scan (first ++ '\n' :: second))) =
      written.map (WrittenStatement.placed (scan first)) ++
        (others.map (WrittenStatement.placed (scan second))).map
          (Statement.shift (Text.bytes first + 1)) := by
  have firsts : ∀ statement ∈ written,
      (statement.move (scan second).pieces.length).placed (scan (first ++ '\n' :: second)) =
        statement.placed (scan first) := by
    intro statement member
    have enclosed := Grammar.read_places found statement member
    rw [Scan.lexemes, List.length_map] at enclosed
    simp only [WrittenStatement.placed, WrittenStatement.move, span_first first second enclosed,
      StatementForm.to_kind_move]
  have seconds : ∀ statement ∈ others,
      statement.placed (scan (first ++ '\n' :: second)) =
        (statement.placed (scan second)).shift (Text.bytes first + 1) := by
    intro statement member
    have enclosed := Grammar.read_places behind statement member
    rw [Scan.lexemes, List.length_map] at enclosed
    simp only [WrittenStatement.placed, Statement.shift, span_second first second enclosed]
  rw [List.map_append, List.map_map, List.map_map]
  exact congrArg₂ _ (List.map_congr_left firsts) (List.map_congr_left seconds)

end Joined

/-- A text behind an accepted script is accepted as it is alone. -/
theorem parse_line {limit : Nat} {first : String} {statements : List Statement}
    (accepted : parse limit first = .ok statements) (second : String) (all : List Statement) :
    parse limit (first ++ "\n" ++ second) = .ok all ↔
      ∃ others, parse limit second = .ok others ∧
        all = statements ++ others.map (Statement.shift (first.utf8ByteSize + 1)) := by
  obtain ⟨written, found, faultless, rfl⟩ := parse_ok_iff.mp accepted
  have text : (first ++ "\n" ++ second).toList = first.toList ++ '\n' :: second.toList := by simp
  rw [parse_ok_iff, text, read_line found, ← utf8_bytes]
  constructor
  · rintro ⟨whole, same, clean, rfl⟩
    obtain ⟨⟨others, rest⟩, behind, both⟩ := Option.map_eq_some_iff.mp same
    cases both
    refine ⟨others.map (WrittenStatement.placed (scan second.toList)), ?_, placed_line found behind⟩
    apply parse_ok_iff.mpr
    exact ⟨others, behind,
      fun statement member => clean statement (List.mem_append_right _ member), rfl⟩
  · rintro ⟨_, alone, rfl⟩
    obtain ⟨others, behind, clean, rfl⟩ := parse_ok_iff.mp alone
    refine ⟨_, by rw [behind]; rfl, ?_, (placed_line found behind).symm⟩
    intro statement member
    rcases List.mem_append.mp member with moved | member
    · obtain ⟨own, inside, rfl⟩ := List.mem_map.mp moved
      change (own.form.move _).faults limit = []
      rw [StatementForm.faults_move, faultless own inside]
      rfl
    · exact clean statement member

end Script

/-! ## Running -/

theorem compile_statements_ok_iff {limits : ScriptLimits} {statements : List Script.Statement} :
    (compileStatements limits statements).isOk = true ↔
      statements.flatMap Script.Statement.errors = [] := by
  unfold compileStatements
  cases found : statements.flatMap Script.Statement.errors with
  | nil => cases statements <;> simp [Compiled.isOk, Compiled.errors]
  | cons error errors => simp [Compiled.isOk, Compiled.errors]

theorem shifted_errors (count : Nat) (statements : List Script.Statement) :
    (statements.map (Script.Statement.shift count)).flatMap Script.Statement.errors = [] ↔
      statements.flatMap Script.Statement.errors = [] := by
  simp [Script.Statement.errors, Script.Statement.shift]

theorem run_all_append (repeatLimit : Nat) (first second : List Instruction) (world : World) :
    runAll repeatLimit (first ++ second) world =
      match runAll repeatLimit first world with
      | .ok _ after => runAll repeatLimit second after
      | .error halt after => .error halt after := by
  induction first generalizing world with
  | nil => rfl
  | cons instruction first induction =>
      have step (later : List Instruction) : runAll repeatLimit (instruction :: later) world =
          match instruction.run repeatLimit world with
          | .ok _ middle => runAll repeatLimit later middle
          | .error halt after => .error halt after := by
        change EStateM.bind _ _ world = _
        rw [EStateM.bind]
        cases instruction.run repeatLimit world <;> rfl
      rw [List.cons_append, step, step]
      cases instruction.run repeatLimit world with
      | ok value middle => exact induction middle
      | error halt after => rfl

/-- A text behind an accepted script and a line break is accepted exactly when it is accepted alone, and
then its statements follow those of the first script, at places further on by the bytes in front.  If
neither has structural faults, the whole has none and runs as the first script and, unless that failed,
the second in the world it left. -/
theorem joined_scripts_run_in_turn (limits : ScriptLimits) {first : String}
    {statements : List Script.Statement}
    (accepted : Script.parse limits.depth first = .ok statements) (second : String) :
    (∀ all, Script.parse limits.depth (first ++ "\n" ++ second) = .ok all ↔
      ∃ others, Script.parse limits.depth second = .ok others ∧
        all = statements ++ others.map (Script.Statement.shift (first.utf8ByteSize + 1))) ∧
    ∀ others all, Script.parse limits.depth second = .ok others →
      Script.parse limits.depth (first ++ "\n" ++ second) = .ok all →
      (compileStatements limits statements).isOk → (compileStatements limits others).isOk →
      (compileStatements limits all).isOk ∧
        ∀ world, (Program.ofStatements limits.repeats all).run world =
          match (Program.ofStatements limits.repeats statements).run world with
          | .ok _ after => (Program.ofStatements limits.repeats others).run after
          | .error halt after => .error halt after := by
  refine ⟨Script.parse_line accepted second, ?_⟩
  intro others all alone whole firstOk secondOk
  obtain ⟨found, same, rfl⟩ := (Script.parse_line accepted second all).mp whole
  rw [alone] at same
  cases same
  constructor
  · rw [compile_statements_ok_iff] at firstOk secondOk ⊢
    rw [List.flatMap_append, firstOk, List.nil_append, shifted_errors]
    exact secondOk
  · intro world
    have instructions : (others.map (Script.Statement.shift (first.utf8ByteSize + 1))).map
        (fun statement => statement.kind.lower) =
          others.map (fun statement => statement.kind.lower) := by
      rw [List.map_map]
      rfl
    unfold Program.ofStatements Program.run
    rw [List.map_append, instructions]
    exact run_all_append _ _ _ world

/-- Ends in a comment that only a line break closes. -/
def commentedScript : String := "var a = 1; # é"

def commentedStatements : List Script.Statement := [⟨⟨0, 9⟩, .definition "a" (.number 1.0)⟩]

def furtherScript : String := " a = a + 2;"

def furtherStatements : List Script.Statement :=
  [⟨⟨1, 10⟩, .assignment "a" (.binary .add (.path "a") (.number 2.0))⟩]

theorem commented_script_is_continued :
    Script.parse 500 commentedScript = .ok commentedStatements ∧
    Script.parse 500 furtherScript = .ok furtherStatements ∧
    Script.parse 500 (commentedScript ++ "\n" ++ furtherScript) = .ok (commentedStatements ++
      [⟨⟨17, 26⟩, .assignment "a" (.binary .add (.path "a") (.number 2.0))⟩]) ∧
    ∀ world, (Program.ofStatements 10000 (commentedStatements ++
        furtherStatements.map (Script.Statement.shift 16))).run world =
      match (Program.ofStatements 10000 commentedStatements).run world with
      | .ok _ after => (Program.ofStatements 10000 furtherStatements).run after
      | .error halt after => .error halt after := by
  have accepted : Script.parse 500 commentedScript = .ok commentedStatements := by decide +kernel
  have alone : Script.parse 500 furtherScript = .ok furtherStatements := by decide +kernel
  obtain ⟨reading, running⟩ := joined_scripts_run_in_turn ⟨500, 10000⟩ accepted furtherScript
  have whole := (reading _).mpr ⟨furtherStatements, alone, rfl⟩
  have bytes : commentedScript.utf8ByteSize + 1 = 16 := by decide +kernel
  rw [bytes] at whole
  exact ⟨accepted, alone, whole,
    (running furtherStatements _ alone whole (by decide) (by decide)).2⟩

end PolicyLevers
