import Mathlib.Data.List.Induction
import PolicyLevers.Program.Compile
import PolicyLevers.Proofs.StatementSpans

/-!
# Where errors are reported

Every error of a script is reported at a part of its text.  The line and column of a syntax error are told by
the text in front of that part.  A structural error is reported at the statement it is in.
-/

namespace PolicyLevers

set_option autoImplicit false

namespace Script

/-! ## Offsets of tokens -/

theorem counted_from_end {α : Type} {items : List α} {count : Nat} (visible : 0 < count)
    (inside : count ≤ items.length) :
    ∃ front item behind, items = front ++ item :: behind ∧ behind.length + 1 = count := by
  have place : items.length - count < items.length := by omega
  refine ⟨items.take (items.length - count), items[items.length - count],
    items.drop (items.length - count + 1), ?_, ?_⟩
  · rw [← List.drop_eq_getElem_cons place, List.take_append_drop]
  · rw [List.length_drop]
    omega

/-- An extent with a token behind it covers a part of the text. -/
theorem enclosed_covers {source : List Char} {extent : Extent}
    (enclosed : extent.Enclosed (scan source).pieces.length) :
    ∃ part, ((Offsets.ofScan (scan source)).span extent).Covers source part := by
  obtain ⟨followed, visible, inside⟩ := enclosed
  obtain ⟨ahead, left, spaced⟩ := extent
  dsimp only at followed visible inside
  obtain ⟨front, first, others, pieces, rfl⟩ := counted_from_end (Nat.zero_lt_of_lt visible) inside
  obtain ⟨inner, next, behind, rfl, rfl⟩ := counted_from_end followed (Nat.le_of_lt_succ visible)
  have scanned : scan source = ⟨front ++ first :: (inner ++ next :: behind), (scan source).trailing⟩ := by
    rw [← pieces]
  rw [List.length_append, List.length_cons]
  cases spaced with
  | true => exact ⟨_, spaced_tokens_covered scanned⟩
  | false => exact ⟨_, tokens_covered scanned⟩

theorem start_at_most (source : List Char) (ahead : Nat) :
    (Offsets.ofScan (scan source)).startAt ahead =
      (Offsets.ofScan (scan source)).startAt (min ahead (scan source).pieces.length) := by
  simp only [Offsets.startAt, offsets_of_scan, starts_length]
  congr 1
  omega

theorem start_at_end (source : List Char) :
    (Offsets.ofScan (scan source)).startAt 0 = Text.bytes source := by
  have finish := token_offsets_finish 0 (scan source)
  have starts := (token_offsets_length 0 (scan source).pieces).1
  rw [scan_text, Nat.zero_add] at finish
  simp only [Offsets.startAt, offsets_of_scan, starts_length, Nat.zero_add, Nat.add_sub_cancel]
  rw [Scan.starts, List.getD_append_right _ _ _ _ (Nat.le_of_eq starts), starts, Nat.sub_self, ← finish]
  rfl

theorem start_splits (source : List Char) (ahead : Nat) :
    ∃ before after, source = before ++ after ∧
      (Offsets.ofScan (scan source)).startAt ahead = Text.bytes before ∧ Visible after := by
  rw [start_at_most]
  have inside := Nat.min_le_right ahead (scan source).pieces.length
  generalize min ahead (scan source).pieces.length = count at inside
  rcases Nat.eq_zero_or_pos count with rfl | visible
  · exact ⟨source, [], (List.append_nil source).symm, start_at_end source, rfl⟩
  · obtain ⟨front, piece, behind, pieces, rfl⟩ := counted_from_end visible inside
    have scanned : scan source = ⟨front ++ piece :: behind, (scan source).trailing⟩ := by
      rw [← pieces]
    obtain ⟨rest, together, split, _, others⟩ := scan_cons (scan_rest scanned)
    have start := start_at_token front behind piece (scan source).trailing
    rw [← scanned] at start
    refine ⟨Scan.text ⟨front, piece.leading⟩, piece.token.text ++ rest, ?_, start, ?_⟩
    · have whole := scan_text source
      rw [scanned, text_append, together, ← List.append_assoc, ← text_gap] at whole
      exact whole.symm
    · have after := split_gap_visible_rest false (Scan.text ⟨piece :: behind, (scan source).trailing⟩)
      rwa [split] at after

/-! ## Lines and columns -/

def LineColumn.next (place : LineColumn) (c : Char) : LineColumn :=
  if c = '\n' then ⟨place.line + 1, 1⟩ else ⟨place.line, place.column + 1⟩

theorem LineColumn.next_feed (place : LineColumn) : place.next '\n' = ⟨place.line + 1, 1⟩ := if_pos rfl

theorem LineColumn.next_other {c : Char} (other : c ≠ '\n') (place : LineColumn) :
    place.next c = ⟨place.line, place.column + 1⟩ := if_neg other

theorem advance_through (place : LineColumn) (before after : List Char) :
    advance place (before ++ after) (Text.bytes before) = before.foldl LineColumn.next place := by
  induction before generalizing place with
  | nil => cases after <;> simp [advance, Text.bytes]
  | cons c before induction =>
      have size := Char.utf8Size_pos c
      have bytes : Text.bytes (c :: before) = c.utf8Size + Text.bytes before := rfl
      have some : ¬c.utf8Size + Text.bytes before = 0 := by omega
      rw [List.cons_append, bytes, advance, if_neg some, Nat.add_sub_cancel_left, induction]
      rfl

/-- The line behind a text is told by the line feeds in it, the column by the characters behind the last of
them. -/
theorem lines_and_columns (before : List Char) :
    before.foldl LineColumn.next ⟨1, 1⟩ =
      ⟨before.count '\n' + 1, (before.reverse.takeWhile (fun c => c ≠ '\n')).length + 1⟩ := by
  induction before using List.reverseRecOn with
  | nil => rfl
  | append_singleton before c induction =>
      rw [List.foldl_append, induction, List.count_append, List.reverse_append]
      by_cases lineEnd : c = '\n'
      · simp [LineColumn.next, lineEnd]
      · simp [LineColumn.next, lineEnd]

theorem parse_error_covers {limit : Nat} {source : String} {error : SyntaxError}
    (refused : parse limit source = .error error) :
    (∃ part, error.span.Covers source.toList part) ∧
      error.place = lineColumn source.toList error.span.start := by
  unfold parse at refused
  dsimp only at refused
  cases found : (Grammar.read (scan source.toList).lexemes).outcome with
  | none =>
      rw [found] at refused
      cases refused
      obtain ⟨before, after, together, start, _⟩ := start_splits source.toList
        (Grammar.read (scan source.toList).lexemes).missed.ahead
      refine ⟨⟨[], before, after, together, ?_⟩, rfl⟩
      rw [List.append_nil, ← start]
      rfl
  | some result =>
      obtain ⟨written, rest⟩ := result
      rw [found] at refused
      dsimp only at refused
      split at refused
      · rename_i fault others faults
        cases refused
        have member : fault ∈ written.flatMap (fun statement => statement.form.faults limit) := by
          rw [faults]
          exact List.mem_cons_self
        obtain ⟨statement, listed, inside⟩ := List.mem_flatMap.mp member
        have enclosed := Grammar.faults_enclosed found statement listed limit fault inside
        rw [Scan.lexemes, List.length_map] at enclosed
        exact ⟨enclosed_covers enclosed, rfl⟩
      · cases refused

theorem statement_covers {limit : Nat} {source : String} {statements : List Statement}
    (parsed : parse limit source = .ok statements) :
    ∀ statement ∈ statements, ∃ part, statement.span.Covers source.toList part := by
  obtain ⟨written, found, _, rfl⟩ := parse_ok_iff.mp parsed
  intro statement member
  obtain ⟨own, listed, rfl⟩ := List.mem_map.mp member
  have enclosed := Grammar.read_places found own listed
  rw [Scan.lexemes, List.length_map] at enclosed
  exact enclosed_covers enclosed

/-! ## Structural errors -/

def Expr.lifecyclePaths : Expr → List String
  | .number _ => []
  | .path _ => []
  | .binary _ left right => left.lifecyclePaths ++ right.lifecyclePaths
  | .conditional _ left right consequent alternative =>
    left.lifecyclePaths ++ (right.lifecyclePaths ++
      (consequent.lifecyclePaths ++ alternative.lifecyclePaths))
  | .lifecycle paths => paths
  | .uniform low high => low.lifecyclePaths ++ high.lifecyclePaths
  | .normal mean deviation => mean.lifecyclePaths ++ deviation.lifecyclePaths
  | .repeated _ count body => count.lifecyclePaths ++ body.lifecyclePaths

/-- The statement contains the name or path that a fault is about, and something is wrong with it. -/
def StatementKind.Contains (kind : StatementKind) : StructuralFault → Prop
  | .dottedDefinition name => (∃ value, kind = .definition name value) ∧ '.' ∈ name.toList
  | .lifecycleOutsideLedger path =>
    (∃ expr ∈ kind.expressions, path ∈ expr.lifecyclePaths) ∧ (Path.parse path).area ≠ some .ledger

theorem stray_paths_are_asked (expr : Expr) :
    expr.strayPaths = expr.lifecyclePaths.filter (fun text => (Path.parse text).area ≠ some .ledger) := by
  induction expr with
  | number value => rfl
  | path text => rfl
  | lifecycle paths => rfl
  | binary op left right leftSame rightSame =>
      rw [Expr.strayPaths, Expr.lifecyclePaths, List.filter_append, leftSame, rightSame]
  | conditional test left right consequent alternative leftSame rightSame sameThen sameElse =>
      rw [Expr.strayPaths, Expr.lifecyclePaths, List.filter_append, List.filter_append,
        List.filter_append, leftSame, rightSame, sameThen, sameElse]
  | uniform low high lowSame highSame =>
      rw [Expr.strayPaths, Expr.lifecyclePaths, List.filter_append, lowSame, highSame]
  | normal mean deviation meanSame deviationSame =>
      rw [Expr.strayPaths, Expr.lifecyclePaths, List.filter_append, meanSame, deviationSame]
  | repeated reducer count body countSame bodySame =>
      rw [Expr.strayPaths, Expr.lifecyclePaths, List.filter_append, countSame, bodySame]

theorem dotted_name_iff {kind : StatementKind} {name : String} :
    kind.dottedName? = some name ↔ (∃ value, kind = .definition name value) ∧ '.' ∈ name.toList := by
  cases kind with
  | definition own value =>
      simp only [StatementKind.dottedName?, Option.ite_none_right_eq_some, List.contains_iff_mem,
        Option.some.injEq, StatementKind.definition.injEq]
      constructor
      · rintro ⟨dotted, rfl⟩
        exact ⟨⟨value, rfl, rfl⟩, dotted⟩
      · rintro ⟨⟨_, rfl, _⟩, dotted⟩
        exact ⟨dotted, rfl⟩
  | _ => simp [StatementKind.dottedName?]

theorem fault_contained_iff {kind : StatementKind} {fault : StructuralFault} :
    fault ∈ kind.faults ↔ kind.Contains fault := by
  unfold StatementKind.faults
  cases fault with
  | dottedDefinition name =>
      simp [StatementKind.Contains, ← dotted_name_iff]
  | lifecycleOutsideLedger path =>
      simp only [StatementKind.Contains, stray_paths_are_asked, List.mem_append, List.mem_map,
        List.mem_flatMap, List.mem_filter, decide_eq_true_eq, reduceCtorEq, and_false, exists_false,
        false_or, StructuralFault.lifecycleOutsideLedger.injEq]
      constructor
      · rintro ⟨_, ⟨expr, inside, asked, stray⟩, rfl⟩
        exact ⟨⟨expr, inside, asked⟩, stray⟩
      · rintro ⟨⟨expr, inside, asked⟩, stray⟩
        exact ⟨path, ⟨expr, inside, asked, stray⟩, rfl⟩

end Script

/-! ## Errors of a script -/

/-- A script is refused for one syntax error or for the structural errors of its statements. -/
theorem compile_error_cases {limits : ScriptLimits} {source : String} {error : ScriptError}
    (reported : error ∈ (compile limits source).errors) :
    (∃ refusal, Script.parse limits.depth source = .error refusal ∧ error = .unreadable refusal) ∨
      ∃ statements, Script.parse limits.depth source = .ok statements ∧ ∃ statement ∈ statements,
        ∃ fault ∈ statement.kind.faults, error = .structural ⟨fault, statement.span⟩ := by
  unfold compile at reported
  split at reported
  · cases reported
  · split at reported
    · rename_i refusal refused
      exact Or.inl ⟨refusal, refused, List.mem_singleton.mp reported⟩
    · rename_i statements parsed
      refine Or.inr ⟨statements, parsed, ?_⟩
      unfold compileStatements at reported
      split at reported
      · split at reported
        · cases reported
        · cases reported
      · obtain ⟨structural, member, rfl⟩ := List.mem_map.mp reported
        obtain ⟨statement, listed, own⟩ := List.mem_flatMap.mp member
        obtain ⟨fault, inside, rfl⟩ := List.mem_map.mp own
        exact ⟨statement, listed, fault, inside, rfl⟩

/-- Every error of a script covers a part of its text.  A syntax error has the line and column of its start,
told by the line feeds in front of it and the characters behind the last of them; a carriage return in front of
a line feed belongs to it, and one alone is a character.  A structural error has the span of the statement that
contains the name or path it is about.  The statements of a script that is read tile its text in their order,
with semicolons, blanks and comments between them. -/
theorem error_positions_are_sound (limits : ScriptLimits) (source : String) :
    (∀ error ∈ (compile limits source).errors, ∃ span part,
      error.diagnostic.span = some span ∧ span.Covers source.toList part) ∧
    (∀ error, ScriptError.unreadable error ∈ (compile limits source).errors →
      ∃ before after, source.toList = before ++ after ∧ error.span.start = Text.bytes before ∧
        error.place = ⟨before.count '\n' + 1,
          (before.reverse.takeWhile (fun c => c ≠ '\n')).length + 1⟩) ∧
    (∀ error, ScriptError.structural error ∈ (compile limits source).errors →
      ∃ statements, Script.parse limits.depth source = .ok statements ∧ ∃ statement ∈ statements,
        statement.kind.Contains error.fault ∧ error.span = statement.span) ∧
    ∀ statements, Script.parse limits.depth source = .ok statements →
      Script.Tiled 0 (statements.map Script.Statement.span) source.toList ∧
      (statements.map Script.Statement.span).Pairwise (fun first second =>
        first.start < first.stop ∧ first.stop ≤ second.start) := by
  refine ⟨?_, ?_, ?_, ?_⟩
  · intro error reported
    rcases compile_error_cases reported with ⟨refusal, refused, rfl⟩ |
      ⟨statements, parsed, statement, listed, fault, _, rfl⟩
    · obtain ⟨⟨part, covers⟩, _⟩ := Script.parse_error_covers refused
      exact ⟨_, part, rfl, covers⟩
    · obtain ⟨part, covers⟩ := Script.statement_covers parsed statement listed
      exact ⟨_, part, rfl, covers⟩
  · intro error reported
    rcases compile_error_cases reported with ⟨refusal, refused, same⟩ | ⟨_, _, _, _, _, _, other⟩
    · cases same
      obtain ⟨⟨part, before, after, together, span⟩, place⟩ := Script.parse_error_covers refused
      refine ⟨before, part ++ after, together, by rw [span], ?_⟩
      rw [place, together, span, Script.lineColumn, Script.advance_through, Script.lines_and_columns]
    · cases other
  · intro error reported
    rcases compile_error_cases reported with ⟨_, _, other⟩ |
      ⟨statements, parsed, statement, listed, fault, inside, same⟩
    · cases other
    · cases same
      exact ⟨statements, parsed, statement, listed, Script.fault_contained_iff.mp inside, rfl⟩
  · intro statements parsed
    have tiled := Script.parsed_tiles parsed
    exact ⟨tiled, tiled.apart⟩

/-- Nothing is assigned, behind an accent and a carriage return. -/
def brokenDraft : String := "# é\r\nx = ;"

def strayDraft : String := "var a.b = 1; # é\r\nx = lifecycle of [in.x];"

theorem drafts_are_placed :
    (compile {} brokenDraft).errors = [.unreadable ⟨.unexpected [.arithmetic], ⟨10, 10⟩, ⟨2, 5⟩⟩] ∧
    (∃ before after, brokenDraft.toList = before ++ after ∧ 10 = Text.bytes before ∧
      (⟨2, 5⟩ : Script.LineColumn) = ⟨before.count '\n' + 1,
        (before.reverse.takeWhile (fun c => c ≠ '\n')).length + 1⟩) ∧
    (compile {} strayDraft).errors = [.structural ⟨.dottedDefinition "a.b", ⟨0, 11⟩⟩,
      .structural ⟨.lifecycleOutsideLedger "in.x", ⟨19, 42⟩⟩] ∧
    ∃ statements, Script.parse 500 strayDraft = .ok statements ∧ ∃ statement ∈ statements,
      statement.kind.Contains (.lifecycleOutsideLedger "in.x") ∧ ⟨19, 42⟩ = statement.span := by
  have broken : (compile {} brokenDraft).errors =
      [.unreadable ⟨.unexpected [.arithmetic], ⟨10, 10⟩, ⟨2, 5⟩⟩] := by
    decide +kernel
  have stray : (compile {} strayDraft).errors = [.structural ⟨.dottedDefinition "a.b", ⟨0, 11⟩⟩,
      .structural ⟨.lifecycleOutsideLedger "in.x", ⟨19, 42⟩⟩] := by
    decide +kernel
  refine ⟨broken, ?_, stray, ?_⟩
  · exact (error_positions_are_sound {} brokenDraft).2.1 _ (broken ▸ List.mem_cons_self)
  · exact (error_positions_are_sound {} strayDraft).2.2.1 _
      (stray ▸ List.mem_cons_of_mem _ List.mem_cons_self)

end PolicyLevers
