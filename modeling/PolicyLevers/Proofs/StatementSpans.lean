import PolicyLevers.Proofs.CoveredTexts
import PolicyLevers.Proofs.FoundExtents

/-!
# Spans of statements

The statements of a script stand one behind the other in its text.  Each has a semicolon behind it, and
around it and the semicolon there is nothing but blanks and comments.
-/

namespace PolicyLevers.Script

set_option autoImplicit false

open PolicyLevers.Script.Parser

/-! ## Gaps are fillings -/

/-- Where the first character of a gap leads: on in a comment or out of it, past a blank, or into a
comment. -/
theorem gap_step {inComment : Bool} {c : Char} {gap text : List Char}
    (split : splitGap inComment (c :: (gap ++ text)) = (c :: gap, text)) :
    (inComment = true ∧ splitGap (c ≠ '\n') (gap ++ text) = (gap, text)) ∨
      (isSpace c = true ∧ splitGap false (gap ++ text) = (gap, text)) ∨
        (c = '#' ∨ c = '/' ∧ (gap ++ text).head? = some '/') ∧ splitGap true (gap ++ text) = (gap, text) := by
  have behind {deeper : Bool} (same : (c :: (splitGap deeper (gap ++ text)).1,
      (splitGap deeper (gap ++ text)).2) = (c :: gap, text)) :
      splitGap deeper (gap ++ text) = (gap, text) := by
    obtain ⟨inside, rest⟩ := Prod.mk.inj same
    exact Prod.ext (List.cons.inj inside).2 rest
  cases inComment with
  | true => exact Or.inl ⟨rfl, behind split⟩
  | false =>
      by_cases space : isSpace c = true
      · simp only [splitGap, Bool.false_eq_true, if_false, space, if_true] at split
        exact Or.inr (Or.inl ⟨space, behind split⟩)
      · by_cases comment : (c = '#' || (c = '/' && (gap ++ text).head? = some '/')) = true
        · simp only [splitGap, Bool.false_eq_true, if_false, space, comment, if_true] at split
          exact Or.inr (Or.inr ⟨by simpa using comment, behind split⟩)
        · simp only [splitGap, Bool.false_eq_true, if_false, space, comment] at split
          cases split

/-- What is skipped in front of a token is blanks and closed comments; in a comment the rest of its line
comes first. -/
theorem skipped_fills {gap text : List Char} (present : text ≠ []) :
    (splitGap false (gap ++ text) = (gap, text) → Filling gap) ∧
      (splitGap true (gap ++ text) = (gap, text) →
        ∃ line rest, gap = line ++ '\n' :: rest ∧ '\n' ∉ line ∧ Filling rest) := by
  induction gap with
  | nil => exact ⟨fun _ => .nothing, fun split => absurd split (comment_not_ended present)⟩
  | cons c gap induction =>
      obtain ⟨outside, inside⟩ := induction
      constructor
      · intro split
        rcases gap_step split with ⟨closed, _⟩ | ⟨space, others⟩ | ⟨opens, others⟩
        · cases closed
        · exact .blank space (outside others)
        · obtain ⟨line, rest, rfl, inLine, fills⟩ := inside others
          rcases opens with rfl | ⟨rfl, second⟩
          · exact .comment (Or.inl rfl) inLine fills
          · -- the second slash is the first character of the line
            cases line with
            | nil => cases second
            | cons d line =>
                obtain rfl : d = '/' := Option.some.inj second
                exact .comment (Or.inr rfl) (fun member => inLine (List.mem_cons_of_mem _ member)) fills
      · intro split
        by_cases lineEnd : c = '\n'
        · subst lineEnd
          exact ⟨[], gap, rfl, List.not_mem_nil, outside (by simpa [splitGap, Prod.ext_iff] using split)⟩
        · obtain ⟨line, rest, rfl, inLine, fills⟩ :=
            inside (by simpa [splitGap, lineEnd, Prod.ext_iff] using split)
          exact ⟨c :: line, rest, rfl, List.not_mem_cons_of_ne_of_not_mem (Ne.symm lineEnd) inLine, fills⟩

theorem leading_fills {source : List Char} {front behind : List Piece} {piece : Piece} {trailing : List Char}
    (scanned : scan source = ⟨front ++ piece :: behind, trailing⟩) : Filling piece.leading := by
  obtain ⟨rest, together, split, found, _⟩ := scan_cons (scan_rest scanned)
  rw [together] at split
  have visible := (split_token_append found).2
  exact (skipped_fills (List.append_ne_nil_of_left_ne_nil visible rest)).1 split

theorem trailing_fills (source : List Char) : Filling ((scan source).trailing ++ ['\n']) := by
  have line := split_gap_line (scan_trailing_blank source) [';']
  have split : splitGap false (((scan source).trailing ++ ['\n']) ++ [';']) =
      ((scan source).trailing ++ ['\n'], [';']) := by
    rw [List.append_assoc, List.singleton_append, line]
    rfl
  exact (skipped_fills (List.cons_ne_nil _ _)).1 split

/-! ## Statements and what is between them -/

/-- The text behind an offset is the statements of these spans, each with a semicolon behind it, and blanks
and comments.  A comment behind the last statement may be open. -/
inductive Tiled : Nat → List Span → List Char → Prop where
  | ends {offset : Nat} {trailing : List Char} (blank : Filling (trailing ++ ['\n'])) :
      Tiled offset [] trailing
  | statement {offset : Nat} {gap part before rest : List Char} {spans : List Span} (blank : Filling gap)
      (visible : part ≠ []) (closing : Filling before)
      (others : Tiled (offset + Text.bytes (gap ++ (part ++ (before ++ [';'])))) spans rest) :
      Tiled offset (⟨offset + Text.bytes gap, offset + Text.bytes (gap ++ part)⟩ :: spans)
        (gap ++ (part ++ (before ++ ';' :: rest)))

theorem bytes_positive {text : List Char} (visible : text ≠ []) : 0 < Text.bytes text := by
  cases text with
  | nil => exact absurd rfl visible
  | cons c text =>
      have size := Char.utf8Size_pos c
      change 0 < c.utf8Size + Text.bytes text
      omega

theorem Tiled.behind {offset : Nat} {spans : List Span} {text : List Char} (tiled : Tiled offset spans text) :
    ∀ span ∈ spans, offset ≤ span.start ∧ span.start < span.stop := by
  induction tiled with
  | ends blank => simp
  | @statement offset gap part before rest spans blank visible closing others induction =>
      have size := bytes_positive visible
      refine List.forall_mem_cons.mpr ⟨⟨Nat.le_add_right _ _, ?_⟩, ?_⟩
      · dsimp only
        rw [bytes_append]
        omega
      · intro span member
        obtain ⟨later, own⟩ := induction span member
        exact ⟨Nat.le_trans (Nat.le_add_right _ _) later, own⟩

theorem Tiled.apart {offset : Nat} {spans : List Span} {text : List Char} (tiled : Tiled offset spans text) :
    spans.Pairwise (fun first second => first.start < first.stop ∧ first.stop ≤ second.start) := by
  induction tiled with
  | ends blank => exact .nil
  | @statement offset gap part before rest spans blank visible closing others induction =>
      have size := bytes_positive visible
      refine .cons ?_ induction
      intro span member
      have later := (others.behind span member).1
      simp only [bytes_append] at later ⊢
      omega

/-! ## The statements of a script -/

section Placed

variable {source trailing : List Char} {front inner behind : List Piece} {first last : Piece}

theorem statement_span (scanned : scan source = ⟨front ++ first :: (inner ++ last :: behind), trailing⟩)
    (spaced : Bool) :
    (Offsets.ofScan (scan source)).span
        ⟨inner.length + (behind.length + 1) + 1, behind.length + 1, spaced⟩ =
      ⟨Text.bytes (Scan.text ⟨front, []⟩) + Text.bytes first.leading,
        Text.bytes (Scan.text ⟨front, []⟩) + Text.bytes (first.leading ++ (first.token.text ++
          Scan.text ⟨inner, if spaced then last.leading else []⟩))⟩ := by
  have start := start_at_token front (inner ++ last :: behind) first trailing
  have through := start_at_token (front ++ first :: inner) behind last trailing
  have stop := stop_at_token (front ++ first :: inner) (last :: behind) trailing
  rw [List.length_append, List.length_cons] at start
  rw [List.append_assoc, List.cons_append] at through stop
  rw [List.length_cons] at stop
  have gap := text_gap front first.leading
  rw [text_through, gap, List.append_assoc, bytes_append] at through stop
  rw [gap, bytes_append] at start
  rw [scanned]
  unfold Offsets.span
  dsimp only
  cases spaced with
  | true => simp only [if_true, start, through]
  | false => simp only [Bool.false_eq_true, if_false, start, stop]

theorem statement_text (closes : last.token = .symbol ';') (spaced : Bool) :
    Scan.text ⟨first :: (inner ++ last :: behind), trailing⟩ =
      first.leading ++ ((first.token.text ++ Scan.text ⟨inner, if spaced then last.leading else []⟩) ++
        ((if spaced then [] else last.leading) ++ ';' :: Scan.text ⟨behind, trailing⟩)) := by
  have through := text_append (first :: inner) (last :: behind) trailing
  have back : Scan.text ⟨last :: behind, trailing⟩ =
      last.leading ++ ';' :: Scan.text ⟨behind, trailing⟩ := by
    change last.leading ++ (last.token.text ++ Scan.text ⟨behind, trailing⟩) = _
    rw [closes]
    rfl
  have own : Scan.text ⟨first :: inner, []⟩ =
      first.leading ++ (first.token.text ++ Scan.text ⟨inner, []⟩) := rfl
  rw [List.cons_append] at through
  rw [through, back, own]
  cases spaced with
  | true => simp [text_gap inner last.leading]
  | false => simp

end Placed

theorem statements_tile {source trailing : List Char} {depth : Nat} {written : List WrittenStatement}
    {tokens rest : List Lexeme} {front pieces : List Piece}
    (repeated : Repeats (Grammar.statement (Grammar.level depth)) tokens written rest) (ended : rest = [])
    (short : tokens.length < depth) (scanned : scan source = ⟨front ++ pieces, trailing⟩)
    (same : tokens = Scan.lexemes ⟨pieces, trailing⟩) :
    Tiled (Text.bytes (Scan.text ⟨front, []⟩))
      (written.map (fun statement => (Offsets.ofScan (scan source)).span statement.extent))
      (Scan.text ⟨pieces, trailing⟩) := by
  induction repeated generalizing front pieces with
  | stop missed =>
      subst ended
      obtain rfl : pieces = [] := List.map_eq_nil_iff.mp same.symm
      have last := trailing_fills source
      rw [scanned] at last
      exact .ends last
  | @more tokens middle rest statement others found shorter later induction =>
      obtain ⟨gap, _, place, taken, together, visible, _⟩ := Grammar.statement_takes short found
      -- the pieces of the statement, its semicolon and the others
      obtain ⟨own, tail, rfl, ownTokens, tailTokens⟩ := List.map_eq_append_iff.mp (same.symm.trans together)
      obtain ⟨last, behind, rfl, closing, rfl⟩ := List.map_eq_cons_iff.mp tailTokens
      obtain ⟨first, inner, rfl⟩ : ∃ first inner, own = first :: inner := by
        cases own with
        | nil =>
            rw [← ownTokens] at visible
            cases visible
        | cons first inner => exact ⟨first, inner, rfl⟩
      have closes : last.token = .symbol ';' := congrArg Lexeme.token closing
      have fills := leading_fills scanned
      have scannedLast : scan source = ⟨(front ++ first :: inner) ++ last :: behind, trailing⟩ := by
        rw [scanned, List.append_assoc]
      have scannedRest : scan source = ⟨(front ++ first :: (inner ++ [last])) ++ behind, trailing⟩ := by
        rw [scanned]
        simp
      have visiblePart (more : List Char) : first.token.text ++ more ≠ [] := by
        obtain ⟨_, _, _, token, _⟩ := scan_cons (scan_rest scanned)
        exact List.append_ne_nil_of_left_ne_nil (split_token_append token).2 more
      have tiled := induction ended (Nat.lt_trans shorter short) scannedRest rfl
      generalize Grammar.isSpaced statement.form = spaced at place
      have closing : Filling (if spaced then [] else last.leading) := by
        cases spaced with
        | true => exact .nothing
        | false => exact leading_fills scannedLast
      have offset := text_append front (first :: (inner ++ [last])) []
      rw [statement_text closes spaced] at offset
      rw [offset, bytes_append] at tiled
      have extent : statement.extent = ⟨inner.length + (behind.length + 1) + 1, behind.length + 1, spaced⟩ := by
        rw [place, same]
        simp [Scan.lexemes]
      rw [List.map_cons, extent, statement_span scanned, List.cons_append, statement_text closes spaced]
      exact .statement fills (visiblePart _) closing tiled

/-- The statements of a script tile its text. -/
theorem parsed_tiles {limit : Nat} {source : String} {statements : List Statement}
    (parsed : parse limit source = .ok statements) :
    Tiled 0 (statements.map Statement.span) source.toList := by
  obtain ⟨written, found, _, rfl⟩ := parse_ok_iff.mp parsed
  obtain ⟨_, repeated⟩ := Grammar.read_some_iff.mp found
  have whole := scan_text source.toList
  have scanned : scan source.toList = ⟨[] ++ (scan source.toList).pieces, (scan source.toList).trailing⟩ :=
    rfl
  have tiled := statements_tile repeated rfl (Nat.lt_succ_self _) scanned rfl
  rw [whole] at tiled
  rwa [List.map_map]

end PolicyLevers.Script
