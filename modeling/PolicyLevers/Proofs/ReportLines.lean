import PolicyLevers.Proofs.ErrorPositions
import PolicyLevers.Report.SourceLines

/-!
# Lines of a report and lines of a script

A report looks an offset up in lines that end with any of seven characters.  The place it finds is that of a
walk over the text.  It is the place that the script itself gives to its front, if that front has as many
characters as the offset says and its lines end with line feeds only.
-/

namespace PolicyLevers.Report

set_option autoImplicit false

open PolicyLevers.Script (LineColumn)

/-! ## Looking up an offset -/

/-- The line that an offset lies in and what is left of it there, both counted from zero. -/
def seek : List (List Char) → Nat → Nat × Nat
  | [], offset => (0, offset)
  | [_], offset => (0, offset)
  | line :: next :: others, offset =>
    if offset < line.length then (0, offset)
    else
      let (index, rest) := seek (next :: others) (offset - line.length)
      (index + 1, rest)

/-- Placed lines are looked up by their lengths. -/
theorem seek_placed (base offset : Nat) {lines : List (List Char)} (some : lines ≠ []) :
    ∃ found, (placeLines base lines)[(seek lines offset).1]? = Option.some found ∧
      found.offset + (seek lines offset).2 = base + offset ∧
      ((placeLines base lines).takeWhile (fun line => line.offset ≤ base + offset)).length =
        (seek lines offset).1 + 1 := by
  induction lines generalizing base offset with
  | nil => exact absurd rfl some
  | cons line others induction =>
      cases others with
      | nil => exact ⟨⟨base, line⟩, rfl, rfl, by simp [placeLines, seek]⟩
      | cons next others =>
          have here : base ≤ base + offset := Nat.le_add_right _ _
          by_cases inside : offset < line.length
          · have stops : ¬base + line.length ≤ base + offset := by omega
            refine ⟨⟨base, line⟩, ?_, ?_, ?_⟩
            · simp [seek, inside, placeLines]
            · simp [seek, inside]
            · simp [seek, inside, placeLines, stops]
          · obtain ⟨found, own, sum, count⟩ :=
              induction (base + line.length) (offset - line.length) (List.cons_ne_nil _ _)
            have same : base + line.length + (offset - line.length) = base + offset := by omega
            rw [same] at sum count
            have step : seek (line :: next :: others) offset =
                ((seek (next :: others) (offset - line.length)).1 + 1,
                  (seek (next :: others) (offset - line.length)).2) := by
              rw [seek, if_neg inside]
            have placed : placeLines base (line :: next :: others) =
                ⟨base, line⟩ :: placeLines (base + line.length) (next :: others) := rfl
            rw [step, placed]
            refine ⟨found, own, sum, ?_⟩
            rw [List.takeWhile_cons, if_pos (by simp), List.length_cons, count]

/-! ## Splitting into lines -/

theorem split_lines_nil_iff {text : List Char} : splitLines text = [] ↔ text = [] := by
  fun_cases splitLines text <;> simp_all

theorem split_lines_flatten (text : List Char) : (splitLines text).flatten = text := by
  fun_induction splitLines text <;> simp_all

theorem place_lines_stop (base : Nat) {lines : List (List Char)} (some : lines ≠ []) :
    ((placeLines base lines).getLast?.map SourceLine.stop).getD 0 = base + lines.flatten.length := by
  induction lines generalizing base with
  | nil => exact absurd rfl some
  | cons line others induction =>
      cases others with
      | nil => simp [placeLines, SourceLine.stop, SourceLine.length]
      | cons next others =>
          have last := induction (base + line.length) (List.cons_ne_nil _ _)
          rw [List.flatten_cons, List.length_append, ← Nat.add_assoc, ← last]
          simp only [placeLines, List.getLast?_cons_cons]

/-! ## Walking over a text -/

/-- The place that a report names for an offset into the rest of a text, behind a place. -/
def walk (place : LineColumn) : List Char → Nat → LineColumn
  | [], offset => ⟨place.line, place.column + offset⟩
  | '\r' :: '\n' :: rest, offset =>
    if offset < 2 ∨ rest = [] then ⟨place.line, place.column + offset⟩
    else walk ⟨place.line + 1, 1⟩ rest (offset - 2)
  | c :: rest, offset =>
    if offset = 0 then place
    else if isTerminator c ∧ rest ≠ [] then walk ⟨place.line + 1, 1⟩ rest (offset - 1)
    else walk ⟨place.line, place.column + 1⟩ rest (offset - 1)

def behind (place : LineColumn) (found : Nat × Nat) : LineColumn :=
  if found.1 = 0 then ⟨place.line, place.column + found.2⟩
  else ⟨place.line + found.1, found.2 + 1⟩

theorem behind_line (place : LineColumn) (found : Nat × Nat) :
    behind place (found.1 + 1, found.2) = behind ⟨place.line + 1, 1⟩ found := by
  unfold behind
  split <;> rename_i first
  · cases first
  · split
    · rename_i zero
      simp [zero, Nat.add_comm]
    · simp [Nat.add_assoc, Nat.add_comm 1]

theorem seek_step {line : List Char} {others : List (List Char)} (more : others ≠ []) (offset : Nat) :
    seek (line :: others) offset =
      if offset < line.length then (0, offset)
      else ((seek others (offset - line.length)).1 + 1, (seek others (offset - line.length)).2) := by
  cases others with
  | nil => exact absurd rfl more
  | cons next others => rfl

theorem seek_longer (place : LineColumn) (c : Char) (line : List Char) (others : List (List Char))
    (offset : Nat) :
    behind place (seek ((c :: line) :: others) (offset + 1)) =
      behind ⟨place.line, place.column + 1⟩ (seek (line :: others) offset) := by
  cases others with
  | nil => simp [seek, behind, Nat.add_assoc, Nat.add_comm 1]
  | cons next others =>
      rw [seek_step (List.cons_ne_nil _ _), seek_step (List.cons_ne_nil _ _), List.length_cons]
      by_cases inside : offset < line.length
      · rw [if_pos inside, if_pos (Nat.succ_lt_succ inside)]
        simp [behind, Nat.add_assoc, Nat.add_comm 1]
      · rw [if_neg inside, if_neg (by omega), Nat.succ_sub_succ]
        simp [behind]

/-- The step over a character that is no carriage return in front of a line feed. -/
theorem walk_cons {place : LineColumn} {c : Char} {rest : List Char} {offset : Nat}
    (alone : ∀ more, c = '\r' → rest = '\n' :: more → False) :
    walk place (c :: rest) offset =
      if offset = 0 then place
      else if isTerminator c ∧ rest ≠ [] then walk ⟨place.line + 1, 1⟩ rest (offset - 1)
      else walk ⟨place.line, place.column + 1⟩ rest (offset - 1) :=
  walk.eq_3 place offset c rest alone

theorem seek_start (place : LineColumn) (c : Char) (line : List Char) (others : List (List Char)) :
    behind place (seek ((c :: line) :: others) 0) = place := by
  cases others <;> simp [seek, behind]

/-- Looking an offset up is walking to it. -/
theorem seek_walk (place : LineColumn) (text : List Char) (offset : Nat) :
    behind place (seek (splitLines text) offset) = walk place text offset := by
  fun_induction splitLines text generalizing place offset with
  | case1 => rfl
  | case2 rest induction =>
      rw [walk]
      cases rest with
      | nil => simp [splitLines, seek, behind]
      | cons c rest =>
          have more : splitLines (c :: rest) ≠ [] := fun none => by cases split_lines_nil_iff.mp none
          rw [seek_step more]
          by_cases inside : offset < 2
          · rw [if_pos (by simpa using inside), if_pos (Or.inl inside)]
            rfl
          · rw [if_neg (by simpa using inside), if_neg (by simpa using inside), behind_line, induction]
            rfl
  | case3 c rest alone ends induction =>
      rw [walk_cons alone]
      cases offset with
      | zero => exact seek_start place c [] _
      | succ offset =>
          rw [if_neg (Nat.succ_ne_zero _), Nat.add_sub_cancel, ← induction, ← induction]
          cases rest with
          | nil =>
              rw [if_neg (by simp)]
              exact seek_longer place c [] [] offset
          | cons next rest =>
              have more : splitLines (next :: rest) ≠ [] := fun none => by cases split_lines_nil_iff.mp none
              rw [if_pos ⟨ends, List.cons_ne_nil _ _⟩, seek_step more, if_neg (by simp), behind_line]
              rfl
  | case4 c rest alone other none induction =>
      obtain rfl := split_lines_nil_iff.mp none
      rw [walk_cons alone]
      cases offset with
      | zero => exact seek_start place c [] []
      | succ offset =>
          rw [if_neg (Nat.succ_ne_zero _), if_neg (fun ends => other ends.1), Nat.add_sub_cancel, ← induction]
          exact seek_longer place c [] [] offset
  | case5 c rest alone other line lines found induction =>
      rw [walk_cons alone]
      cases offset with
      | zero => exact seek_start place c line lines
      | succ offset =>
          rw [if_neg (Nat.succ_ne_zero _), if_neg (fun ends => other ends.1), Nat.add_sub_cancel,
            ← induction, found]
          exact seek_longer place c line lines offset

/-! ## Walking with a script -/

def plainLines : List Char → Bool
  | [] => true
  | '\r' :: '\n' :: rest => plainLines rest
  | c :: rest => (c = '\n' || !isTerminator c) && plainLines rest

/-- The report and the script break the text up to a place in the same lines.  A character that ends the whole
text starts no line in a report, whatever it is, and in a script it does if it is a line feed. -/
def SameLines (before after : List Char) : Prop :=
  plainLines (if after = [] then before.dropLast else before) = true ∧
    (after = [] → before.getLast? ≠ some '\n')

theorem same_lines_nothing (after : List Char) : SameLines [] after :=
  ⟨by split <;> rfl, fun _ => by simp⟩

theorem plain_lines_cons {c : Char} {rest : List Char}
    (alone : ∀ more, c = '\r' → rest = '\n' :: more → False) :
    plainLines (c :: rest) = ((c = '\n' || !isTerminator c) && plainLines rest) :=
  plainLines.eq_3 c rest alone

theorem same_lines_pair {before after : List Char} (more : before ++ after ≠ []) :
    SameLines ('\r' :: '\n' :: before) after ↔ SameLines before after := by
  cases after with
  | cons c after => simp [SameLines, plainLines]
  | nil =>
      cases before with
      | nil => cases more rfl
      | cons d before => simp [SameLines, plainLines, List.getLast?_cons_cons]

theorem same_lines_cons {c : Char} {before after : List Char} (more : before ++ after ≠ [])
    (alone : ∀ others, c = '\r' → before = '\n' :: others → False) :
    SameLines (c :: before) after ↔ (isTerminator c = true → c = '\n') ∧ SameLines before after := by
  have first : (c = '\n' || !isTerminator c) = true ↔ (isTerminator c = true → c = '\n') := by
    cases isTerminator c <;> simp
  cases after with
  | cons d after => simp [SameLines, plain_lines_cons alone, ← first]
  | nil =>
      cases before with
      | nil => cases more rfl
      | cons d before =>
          have aloneInside : ∀ others, c = '\r' → (d :: before).dropLast = '\n' :: others → False := by
            intro others carriage same
            cases before with
            | nil => cases same
            | cons e before =>
                obtain ⟨rfl, _⟩ := List.cons.inj same
                exact alone _ carriage rfl
          simp [SameLines, plain_lines_cons aloneInside, List.getLast?_cons_cons, ← first, and_assoc]

theorem same_lines_last {c : Char} : SameLines [c] [] ↔ c ≠ '\n' := by
  simp [SameLines, plainLines]

theorem walk_forward (place : LineColumn) (text : List Char) (offset : Nat) :
    place.line < (walk place text offset).line ∨
      (walk place text offset).line = place.line ∧ place.column ≤ (walk place text offset).column := by
  fun_induction walk place text offset with
  | case1 place offset => exact Or.inr ⟨rfl, Nat.le_add_right _ _⟩
  | case2 place rest offset stays => exact Or.inr ⟨rfl, Nat.le_add_right _ _⟩
  | case3 place rest offset goes induction =>
      dsimp only at induction
      omega
  | case4 place c rest alone => exact Or.inr ⟨rfl, Nat.le_refl _⟩
  | case5 place c rest offset alone some ends induction =>
      dsimp only at induction
      omega
  | case6 place c rest offset alone some other induction =>
      dsimp only at induction
      omega

theorem walk_line_le (place : LineColumn) (text : List Char) (offset : Nat) :
    place.line ≤ (walk place text offset).line := by
  have forward := walk_forward place text offset
  omega

theorem later_apart {place other : LineColumn} (later : place.line < other.line) : other ≠ place := by
  rintro rfl
  exact Nat.lt_irrefl _ later

theorem walk_apart {place : LineColumn} (ahead : LineColumn) (later : place.line < ahead.line)
    (text : List Char) (offset : Nat) : walk ahead text offset ≠ place :=
  later_apart (Nat.lt_of_lt_of_le later (walk_line_le ahead text offset))

theorem pair_front {before after rest : List Char} (whole : '\r' :: '\n' :: rest = before ++ after)
    (noFeed : after.head? ≠ some '\n') :
    before = [] ∨ ∃ others, before = '\r' :: '\n' :: others ∧ rest = others ++ after := by
  cases before with
  | nil => exact Or.inl rfl
  | cons c before =>
      cases before with
      | nil =>
          obtain rfl : '\n' :: rest = after := (List.cons.inj whole).2
          exact absurd rfl noFeed
      | cons d before =>
          simp only [List.cons_append, List.cons.injEq] at whole
          obtain ⟨rfl, rfl, whole⟩ := whole
          exact Or.inr ⟨before, rfl, whole⟩

theorem single_front {before after rest : List Char} {c : Char} (whole : c :: rest = before ++ after) :
    before = [] ∨ ∃ others, before = c :: others ∧ rest = others ++ after := by
  cases before with
  | nil => exact Or.inl rfl
  | cons d before =>
      simp only [List.cons_append, List.cons.injEq] at whole
      obtain ⟨rfl, whole⟩ := whole
      exact Or.inr ⟨before, rfl, whole⟩

/-- A walk that stays in its line behind a line feed is at the end of the text. -/
theorem feed_is_last {rest : List Char} (stays : ¬(isTerminator '\n' = true ∧ rest ≠ [])) : rest = [] := by
  by_contra more
  exact stays ⟨rfl, more⟩

/-- A walk that starts in a later line stays ahead of the script: only the last line feed of a text takes the
script to a line that the walk does not reach, and there the script starts a line. -/
theorem walk_stays_ahead {before after : List Char} {ahead place : LineColumn} {text : List Char}
    {offset : Nat} (later : place.line < ahead.line) (column : 0 < ahead.column)
    (whole : text = before ++ after) (reach : before.length ≤ offset) (inside : offset ≤ text.length)
    (noFeed : after.head? ≠ some '\n') :
    walk ahead text offset ≠ before.foldl LineColumn.next place := by
  fun_induction walk ahead text offset generalizing before place with
  | case1 ahead offset =>
      obtain ⟨rfl, rfl⟩ := List.append_eq_nil_iff.mp whole.symm
      exact later_apart later
  | case2 ahead rest offset here =>
      rcases pair_front whole noFeed with rfl | ⟨others, rfl, behind⟩
      · exact later_apart later
      · -- both end the text, and only the script is in a new line
        simp only [List.length_cons] at reach
        obtain rfl : rest = [] := here.resolve_left (by omega)
        obtain ⟨rfl, rfl⟩ := List.append_eq_nil_iff.mp behind.symm
        intro same
        have columns : ahead.column + offset = 1 := congrArg LineColumn.column same
        omega
  | case3 ahead rest offset goes induction =>
      rcases pair_front whole noFeed with rfl | ⟨others, rfl, behind⟩
      · exact walk_apart ⟨ahead.line + 1, 1⟩ (Nat.lt_succ_of_lt later) _ _
      · simp only [List.length_cons] at reach inside
        exact @induction others ⟨place.line + 1, 1⟩ (Nat.succ_lt_succ later) Nat.one_pos behind
          (by omega) (by omega)
  | case4 ahead c rest alone =>
      obtain rfl := List.length_eq_zero_iff.mp (Nat.le_zero.mp reach)
      exact later_apart later
  | case5 ahead c rest offset alone moved ends induction =>
      rcases single_front whole with rfl | ⟨others, rfl, behind⟩
      · exact walk_apart ⟨ahead.line + 1, 1⟩ (Nat.lt_succ_of_lt later) _ _
      · simp only [List.length_cons] at reach inside
        refine @induction others (place.next c) ?_ Nat.one_pos behind (by omega) (by omega)
        by_cases lineFeed : c = '\n'
        · subst lineFeed
          exact Nat.succ_lt_succ later
        · rw [LineColumn.next_other lineFeed]
          exact Nat.lt_succ_of_lt later
  | case6 ahead c rest offset alone moved other induction =>
      rcases single_front whole with rfl | ⟨others, rfl, behind⟩
      · exact walk_apart ⟨ahead.line, ahead.column + 1⟩ later _ _
      · simp only [List.length_cons] at reach inside
        by_cases lineFeed : c = '\n'
        · subst lineFeed
          obtain rfl := feed_is_last other
          obtain ⟨rfl, rfl⟩ := List.append_eq_nil_iff.mp behind.symm
          intro same
          have columns : ahead.column + 1 + (offset - 1) = 1 := congrArg LineColumn.column same
          omega
        · rw [List.foldl_cons, LineColumn.next_other lineFeed]
          exact @induction others ⟨place.line, place.column + 1⟩ later (Nat.succ_pos _) behind
            (by omega) (by omega)

theorem nothing_reached (place ahead : LineColumn) (after : List Char) {offset : Nat}
    (further : place.line < ahead.line ∨ ahead.line = place.line ∧ place.column < ahead.column)
    (moved : offset ≠ 0) (text : List Char) (steps : Nat) :
    walk ahead text steps = place ↔ offset = 0 ∧ SameLines [] after := by
  refine iff_of_false ?_ (fun both => moved both.1)
  rintro rfl
  have forward := walk_forward ahead text steps
  omega

/-- The walk ends where the script places its front if it goes as far as the front is long and breaks it in
the same lines, and nowhere else. -/
theorem walk_agrees_iff {before after : List Char} {place : LineColumn} {text : List Char} {offset : Nat}
    (column : 0 < place.column) (whole : text = before ++ after) (reach : before.length ≤ offset)
    (inside : offset ≤ text.length) (noFeed : after.head? ≠ some '\n') :
    walk place text offset = before.foldl LineColumn.next place ↔
      offset = before.length ∧ SameLines before after := by
  fun_induction walk place text offset generalizing before with
  | case1 place offset =>
      obtain ⟨rfl, rfl⟩ := List.append_eq_nil_iff.mp whole.symm
      obtain rfl := Nat.le_zero.mp inside
      exact iff_of_true rfl ⟨rfl, same_lines_nothing []⟩
  | case2 place rest offset here =>
      rcases pair_front whole noFeed with rfl | ⟨others, rfl, behind⟩
      · by_cases still : offset = 0
        · subst still
          exact iff_of_true rfl ⟨rfl, same_lines_nothing after⟩
        · exact nothing_reached place ⟨place.line, place.column + offset⟩ after
            (Or.inr ⟨rfl, Nat.lt_add_of_pos_right (Nat.pos_of_ne_zero still)⟩) still [] 0
      · simp only [List.length_cons] at reach
        obtain rfl : rest = [] := here.resolve_left (by omega)
        obtain ⟨rfl, rfl⟩ := List.append_eq_nil_iff.mp behind.symm
        refine iff_of_false ?_ (fun both => both.2.2 rfl rfl)
        intro same
        have lines : place.line = place.line + 1 := congrArg LineColumn.line same
        omega
  | case3 place rest offset goes induction =>
      obtain ⟨far, more⟩ := not_or.mp goes
      rcases pair_front whole noFeed with rfl | ⟨others, rfl, behind⟩
      · exact nothing_reached place ⟨place.line + 1, 1⟩ after (Or.inl (Nat.lt_succ_self _)) (by omega)
          rest _
      · simp only [List.length_cons] at reach inside ⊢
        have later := @induction others Nat.one_pos behind (by omega) (by omega)
        have length : offset - 2 = others.length ↔ offset = others.length + 1 + 1 := by omega
        rw [same_lines_pair (behind ▸ more), ← length, ← later]
        rfl
  | case4 place c rest alone =>
      obtain rfl := List.length_eq_zero_iff.mp (Nat.le_zero.mp reach)
      exact iff_of_true rfl ⟨rfl, same_lines_nothing _⟩
  | case5 place c rest offset alone moved ends induction =>
      obtain ⟨terminates, more⟩ := ends
      rcases single_front whole with rfl | ⟨others, rfl, behind⟩
      · exact nothing_reached place ⟨place.line + 1, 1⟩ after (Or.inl (Nat.lt_succ_self _)) moved rest _
      · simp only [List.length_cons] at reach inside ⊢
        have aloneInside : ∀ further, c = '\r' → others = '\n' :: further → False := by
          rintro further carriage rfl
          exact alone _ carriage behind
        have length : offset - 1 = others.length ↔ offset = others.length + 1 := by omega
        rw [same_lines_cons (behind ▸ more) aloneInside, List.foldl_cons]
        by_cases lineFeed : c = '\n'
        · subst lineFeed
          have later := @induction others Nat.one_pos behind (by omega) (by omega)
          rw [LineColumn.next_feed, later, length]
          simp
        · rw [LineColumn.next_other lineFeed]
          refine iff_of_false ?_ (fun both => lineFeed (both.2.1 terminates))
          exact walk_stays_ahead (Nat.lt_succ_self place.line) Nat.one_pos behind (by omega) (by omega) noFeed
  | case6 place c rest offset alone moved other induction =>
      rcases single_front whole with rfl | ⟨others, rfl, behind⟩
      · exact nothing_reached place ⟨place.line, place.column + 1⟩ after (Or.inr ⟨rfl, Nat.lt_succ_self _⟩) moved
          rest _
      · simp only [List.length_cons] at reach inside ⊢
        have later := @induction others (Nat.succ_pos _) behind (by omega) (by omega)
        have length : offset - 1 = others.length ↔ offset = others.length + 1 := by omega
        rw [List.foldl_cons]
        by_cases lineFeed : c = '\n'
        · -- the line feed ends the text: the script goes on to a new line
          subst lineFeed
          obtain rfl := feed_is_last other
          obtain ⟨rfl, rfl⟩ := List.append_eq_nil_iff.mp behind.symm
          refine iff_of_false ?_ (fun both => same_lines_last.mp both.2 rfl)
          intro same
          have lines : place.line = place.line + 1 := congrArg LineColumn.line same
          omega
        · rw [LineColumn.next_other lineFeed, later, length]
          refine and_congr_right (fun _ => ?_)
          by_cases more : rest = []
          · subst more
            obtain ⟨rfl, rfl⟩ := List.append_eq_nil_iff.mp behind.symm
            exact iff_of_true (same_lines_nothing []) (same_lines_last.mpr lineFeed)
          · have plain : isTerminator c = true → c = '\n' := fun ends => absurd ⟨ends, more⟩ other
            rw [same_lines_cons (behind ▸ more) (by
              rintro further carriage rfl
              exact alone _ carriage behind)]
            exact (and_iff_right plain).symm

/-! ## Offsets in the lines of a source -/

theorem source_lines_placed (text : List Char) : ∃ lines, lines ≠ [] ∧ lines.flatten = text ∧
    sourceLines text = placeLines 0 lines ∧
    ∀ offset, behind ⟨1, 1⟩ (seek lines offset) = walk ⟨1, 1⟩ text offset := by
  cases text with
  | nil => exact ⟨[[]], List.cons_ne_nil _ _, rfl, rfl, fun _ => rfl⟩
  | cons c rest =>
      refine ⟨splitLines (c :: rest), ?_, split_lines_flatten _, rfl, seek_walk _ _⟩
      intro none
      cases split_lines_nil_iff.mp none

theorem line_index_some_iff {text : List Char} {offset : Nat} :
    (lineIndex? (sourceLines text) offset).isSome = true ↔ offset ≤ text.length := by
  obtain ⟨lines, some, flat, placed, _⟩ := source_lines_placed text
  unfold lineIndex?
  dsimp only
  rw [placed, place_lines_stop 0 some, Nat.zero_add, flat]
  split <;> simp_all

theorem line_index_walk {text : List Char} {offset index : Nat}
    (found : lineIndex? (sourceLines text) offset = some index) :
    (⟨index + 1, offset - (((sourceLines text)[index]?.map SourceLine.offset).getD 0) + 1⟩ : LineColumn) =
      walk ⟨1, 1⟩ text offset := by
  obtain ⟨lines, present, _, placed, walked⟩ := source_lines_placed text
  obtain ⟨line, own, sum, count⟩ := seek_placed 0 offset present
  rw [Nat.zero_add] at sum count
  have same : index = (seek lines offset).1 := by
    unfold lineIndex? at found
    dsimp only at found
    rw [placed] at found
    split at found
    · rw [count] at found
      exact (Option.some.inj found).symm
    · cases found
  rw [← walked, placed, same, own]
  have column : offset - line.offset = (seek lines offset).2 := by omega
  simp only [Option.map_some, Option.getD_some, column, behind]
  split
  · rename_i first
    rw [first, Nat.zero_add, Nat.add_comm]
  · rw [Nat.add_comm]

end PolicyLevers.Report
