import Mathlib.Data.List.GetD
import PolicyLevers.Proofs.MovedPhrases
import PolicyLevers.Proofs.ScannedWords

/-!
# Scanning two texts with a line break between them

The line break ends the last token of the first text and any comment left open behind it.  So the scan of
the whole has the tokens of the first text and then those of the second, and what stood behind the last
token of the first text, with the line break, goes in front of the first token of the second.
-/

namespace PolicyLevers.Script

set_option autoImplicit false

/-! ## What stands behind the last token -/

/-- A line break closes whatever comment is open. -/
theorem split_gap_line {inComment : Bool} {gap : List Char}
    (blank : (splitGap inComment gap).2 = []) (text : List Char) :
    splitGap inComment (gap ++ '\n' :: text) =
      (gap ++ '\n' :: (splitGap false text).1, (splitGap false text).2) := by
  -- A slash opens a comment only with another one behind it, and the line break is none.
  induction gap generalizing inComment with
  | nil => cases inComment <;> simp [splitGap, isSpace]
  | cons c gap induction =>
      have slash : ((gap ++ '\n' :: text).head? = some '/') = (gap.head? = some '/') := by
        cases gap <;> simp
      simp only [splitGap, List.cons_append, slash] at blank ⊢
      split
      · rename_i open_
        simp only [open_, if_true] at blank
        rw [induction blank]
      · rename_i closed
        simp only [closed, if_false, Bool.false_eq_true] at blank
        split
        · rename_i space
          simp only [space, if_true] at blank
          rw [induction blank]
        · rename_i visible
          simp only [visible, if_false, Bool.false_eq_true] at blank
          split
          · rename_i comment
            simp only [comment, if_true] at blank
            rw [induction blank]
          · rename_i other
            simp only [other] at blank
            cases blank

theorem split_token_nothing {text : List Char} (found : splitToken text = none) : text = [] := by
  cases text with
  | nil => rfl
  | cons c text =>
      simp only [splitToken] at found
      split at found
      · cases found
      · split at found <;> cases found

theorem scan_trailing_blank (text : List Char) : (splitGap false (scan text).trailing).2 = [] := by
  fun_induction scan text with
  | case1 text found => exact split_token_nothing found
  | case2 text token rest found others induction => exact induction

/-! ## The scan of the whole -/

def Scan.behind (front : List Char) (scanned : Scan) : Scan :=
  match scanned.pieces with
  | [] => ⟨[], front ++ scanned.trailing⟩
  | piece :: rest => ⟨⟨front ++ piece.leading, piece.token⟩ :: rest, scanned.trailing⟩

theorem scan_behind {gap : List Char} (blank : (splitGap false gap).2 = []) (text : List Char) :
    scan (gap ++ '\n' :: text) = (scan text).behind (gap ++ ['\n']) := by
  have line := split_gap_line blank text
  cases found : splitToken (splitGap false text).2 with
  | none =>
      have nothing : splitToken (splitGap false (gap ++ '\n' :: text)).2 = none := by
        rw [line]
        exact found
      rw [scan_nothing nothing, scan_nothing found]
      simp [Scan.behind]
  | some result =>
      obtain ⟨token, rest⟩ := result
      have next : splitToken (splitGap false (gap ++ '\n' :: text)).2 = some (token, rest) := by
        rw [line]
        exact found
      rw [scan_token next, scan_token found, line]
      simp [Scan.behind]

/-- The second text as it is scanned behind the first one and a line break. -/
def scanAfter (first second : List Char) : Scan :=
  (scan second).behind ((scan first).trailing ++ ['\n'])

theorem scan_line (first second : List Char) :
    scan (first ++ '\n' :: second) =
      ⟨(scan first).pieces ++ (scanAfter first second).pieces,
        (scanAfter first second).trailing⟩ := by
  rw [scan_space rfl, scan_behind (scan_trailing_blank first)]
  rfl

theorem lexemes_line (first second : List Char) :
    (scan (first ++ '\n' :: second)).lexemes =
      (scan first).lexemes ++ (scanAfter first second).lexemes := by
  unfold Scan.lexemes
  rw [scan_line, List.map_append]

theorem lexemes_behind_length (front : List Char) (scanned : Scan) :
    (scanned.behind front).lexemes.length = scanned.pieces.length := by
  unfold Scan.behind Scan.lexemes
  split
  · rename_i none
    simp [none]
  · rename_i some
    simp [some]

/-! ## Offsets -/

theorem bytes_append (first second : List Char) :
    Text.bytes (first ++ second) = Text.bytes first + Text.bytes second := by
  induction first with
  | nil => simp [Text.bytes]
  | cons c first induction =>
      change c.utf8Size + Text.bytes (first ++ second) = c.utf8Size + Text.bytes first + _
      rw [induction, Nat.add_assoc]

theorem token_offsets_append (offset : Nat) (first second : List Piece) :
    tokenOffsets offset (first ++ second) =
      ((tokenOffsets offset first).1 ++ (tokenOffsets (tokenOffsets offset first).2.2 second).1,
        (tokenOffsets offset first).2.1 ++
          (tokenOffsets (tokenOffsets offset first).2.2 second).2.1,
        (tokenOffsets (tokenOffsets offset first).2.2 second).2.2) := by
  induction first generalizing offset with
  | nil => rfl
  | cons piece first induction => simp [tokenOffsets, induction]

theorem token_offsets_shift (offset count : Nat) (pieces : List Piece) :
    tokenOffsets (offset + count) pieces =
      ((tokenOffsets offset pieces).1.map (fun place => place + count),
        (tokenOffsets offset pieces).2.1.map (fun place => place + count),
        (tokenOffsets offset pieces).2.2 + count) := by
  induction pieces generalizing offset with
  | nil => rfl
  | cons piece pieces induction =>
      simp only [tokenOffsets, Nat.add_right_comm offset count, Nat.add_right_comm _ count,
        induction, List.map_cons]

theorem token_offsets_length (offset : Nat) (pieces : List Piece) :
    (tokenOffsets offset pieces).1.length = pieces.length ∧
      (tokenOffsets offset pieces).2.1.length = pieces.length := by
  induction pieces generalizing offset with
  | nil => exact ⟨rfl, rfl⟩
  | cons piece pieces induction =>
      obtain ⟨starts, stops⟩ := induction (offset + Text.bytes piece.leading +
        Text.bytes piece.token.text)
      simp [tokenOffsets, starts, stops]

theorem token_offsets_finish (offset : Nat) (scanned : Scan) :
    (tokenOffsets offset scanned.pieces).2.2 + Text.bytes scanned.trailing =
      offset + Text.bytes scanned.text := by
  obtain ⟨pieces, trailing⟩ := scanned
  unfold Scan.text
  dsimp only
  induction pieces generalizing offset with
  | nil => rfl
  | cons piece pieces induction =>
      simp only [tokenOffsets, List.foldr_cons, bytes_append]
      rw [induction]
      omega

def Scan.starts (offset : Nat) (scanned : Scan) : List Nat :=
  (tokenOffsets offset scanned.pieces).1 ++
    [(tokenOffsets offset scanned.pieces).2.2 + Text.bytes scanned.trailing]

def Scan.stops (offset : Nat) (scanned : Scan) : List Nat := (tokenOffsets offset scanned.pieces).2.1

theorem offsets_of_scan (scanned : Scan) :
    Offsets.ofScan scanned = ⟨scanned.starts 0, 0 :: scanned.stops 0⟩ := rfl

theorem starts_append (offset : Nat) (front : List Piece) (back : Scan) :
    Scan.starts offset ⟨front ++ back.pieces, back.trailing⟩ =
      (tokenOffsets offset front).1 ++ back.starts (tokenOffsets offset front).2.2 := by
  simp [Scan.starts, token_offsets_append]

theorem stops_append (offset : Nat) (front : List Piece) (back : Scan) :
    Scan.stops offset ⟨front ++ back.pieces, back.trailing⟩ =
      (tokenOffsets offset front).2.1 ++ back.stops (tokenOffsets offset front).2.2 := by
  simp [Scan.stops, token_offsets_append]

theorem starts_shift (offset count : Nat) (scanned : Scan) :
    scanned.starts (offset + count) = (scanned.starts offset).map (fun place => place + count) := by
  simp [Scan.starts, token_offsets_shift, Nat.add_right_comm]

theorem stops_shift (offset count : Nat) (scanned : Scan) :
    scanned.stops (offset + count) = (scanned.stops offset).map (fun place => place + count) := by
  simp [Scan.stops, token_offsets_shift]

theorem starts_behind (offset : Nat) (front : List Char) (scanned : Scan) :
    (scanned.behind front).starts offset = scanned.starts (offset + Text.bytes front) := by
  unfold Scan.starts Scan.behind
  split
  · rename_i none
    simp [none, tokenOffsets, bytes_append, Nat.add_assoc]
  · rename_i some
    simp [some, tokenOffsets, bytes_append, Nat.add_assoc]

theorem stops_behind (offset : Nat) (front : List Char) (scanned : Scan) :
    (scanned.behind front).stops offset = scanned.stops (offset + Text.bytes front) := by
  unfold Scan.stops Scan.behind
  split
  · rename_i none
    simp [none, tokenOffsets]
  · rename_i some
    simp [some, tokenOffsets, bytes_append, Nat.add_assoc]

theorem second_offset (first : List Char) :
    (tokenOffsets 0 (scan first).pieces).2.2 + Text.bytes ((scan first).trailing ++ ['\n']) =
      0 + (Text.bytes first + 1) := by
  have finish := token_offsets_finish 0 (scan first)
  rw [scan_text] at finish
  rw [bytes_append, ← Nat.add_assoc, finish, Nat.add_assoc]
  rfl

theorem starts_line (first second : List Char) :
    (scan (first ++ '\n' :: second)).starts 0 =
      (tokenOffsets 0 (scan first).pieces).1 ++
        ((scan second).starts 0).map (fun place => place + (Text.bytes first + 1)) := by
  rw [scan_line, starts_append, scanAfter, starts_behind, second_offset, starts_shift]

theorem stops_line (first second : List Char) :
    (scan (first ++ '\n' :: second)).stops 0 =
      (scan first).stops 0 ++
        ((scan second).stops 0).map (fun place => place + (Text.bytes first + 1)) := by
  rw [scan_line, stops_append, scanAfter, stops_behind, second_offset, stops_shift]
  rfl

/-! ## Spans -/

def Span.shift (count : Nat) (span : Span) : Span := ⟨span.start + count, span.stop + count⟩

theorem starts_length (offset : Nat) (scanned : Scan) :
    (scanned.starts offset).length = scanned.pieces.length + 1 := by
  simp [Scan.starts, (token_offsets_length offset scanned.pieces).1]

theorem stops_length (offset : Nat) (scanned : Scan) :
    (scanned.stops offset).length = scanned.pieces.length :=
  (token_offsets_length offset scanned.pieces).2

theorem get_shifted (count : Nat) {places : List Nat} {index : Nat} (inside : index < places.length) :
    (places.map (fun place => place + count)).getD index 0 = places.getD index 0 + count := by
  rw [List.getD_eq_getElem _ _ (by simpa using inside), List.getD_eq_getElem _ _ inside,
    List.getElem_map]

section Lines

variable (first second : List Char)

theorem start_at_first {ahead : Nat} (visible : 0 < ahead) (inside : ahead ≤ (scan first).pieces.length) :
    (Offsets.ofScan (scan (first ++ '\n' :: second))).startAt (ahead + (scan second).pieces.length) =
      (Offsets.ofScan (scan first)).startAt ahead := by
  have firsts := (token_offsets_length 0 (scan first).pieces).1
  simp only [Offsets.startAt, offsets_of_scan, starts_line, List.length_append, List.length_map,
    starts_length, firsts]
  rw [List.getD_append _ _ _ _ (by omega), Scan.starts, List.getD_append _ _ _ _ (by omega)]
  congr 1
  omega

theorem stop_at_first {ahead : Nat} (inside : ahead ≤ (scan first).pieces.length) :
    (Offsets.ofScan (scan (first ++ '\n' :: second))).stopAt (ahead + (scan second).pieces.length) =
      (Offsets.ofScan (scan first)).stopAt ahead := by
  have firsts : (0 :: (scan first).stops 0).length = (scan first).pieces.length + 1 := by
    rw [List.length_cons, stops_length]
  simp only [Offsets.stopAt, offsets_of_scan, stops_line, List.length_append, List.length_map,
    List.length_cons, stops_length]
  rw [← List.cons_append, List.getD_append _ _ _ _ (by omega)]
  congr 1
  omega

theorem start_at_second {ahead : Nat} (inside : ahead ≤ (scan second).pieces.length) :
    (Offsets.ofScan (scan (first ++ '\n' :: second))).startAt ahead =
      (Offsets.ofScan (scan second)).startAt ahead + (Text.bytes first + 1) := by
  have firsts := (token_offsets_length 0 (scan first).pieces).1
  simp only [Offsets.startAt, offsets_of_scan, starts_line, List.length_append, List.length_map,
    starts_length, firsts]
  rw [List.getD_append_right _ _ _ _ (by omega), ← get_shifted _ (by rw [starts_length]; omega)]
  congr 1
  omega

theorem stop_at_second {ahead : Nat} (inside : ahead < (scan second).pieces.length) :
    (Offsets.ofScan (scan (first ++ '\n' :: second))).stopAt ahead =
      (Offsets.ofScan (scan second)).stopAt ahead + (Text.bytes first + 1) := by
  obtain ⟨index, place⟩ := Nat.exists_eq_add_of_lt inside
  have later : (scan second).pieces.length + 1 - (ahead + 1) = index + 1 := by omega
  have firsts : (0 :: (scan first).stops 0).length = (scan first).pieces.length + 1 := by
    rw [List.length_cons, stops_length]
  simp only [Offsets.stopAt, offsets_of_scan, stops_line, List.length_append, List.length_map,
    List.length_cons, stops_length]
  rw [later, List.getD_cons_succ, ← get_shifted _ (by rw [stops_length]; omega),
    ← List.cons_append, List.getD_append_right _ _ _ _ (by omega)]
  congr 1
  omega

/-- Putting a second text behind leaves the first one's places alone. -/
theorem span_first {extent : Extent} (enclosed : extent.Enclosed (scan first).pieces.length) :
    (Offsets.ofScan (scan (first ++ '\n' :: second))).span
        (extent.move (scan second).pieces.length) =
      (Offsets.ofScan (scan first)).span extent := by
  obtain ⟨followed, visible, inside⟩ := enclosed
  have start := start_at_first first second (Nat.lt_trans followed visible) inside
  have finish := start_at_first first second followed (by omega)
  have stop := stop_at_first first second (show extent.left ≤ _ by omega)
  simp only [Offsets.span, Extent.move, start, finish, stop]

theorem span_second {extent : Extent} (enclosed : extent.Enclosed (scan second).pieces.length) :
    (Offsets.ofScan (scan (first ++ '\n' :: second))).span extent =
      ((Offsets.ofScan (scan second)).span extent).shift (Text.bytes first + 1) := by
  obtain ⟨followed, visible, inside⟩ := enclosed
  have start := start_at_second first second inside
  have finish := start_at_second first second (show extent.left ≤ _ by omega)
  have stop := stop_at_second first second (show extent.left < _ by omega)
  simp only [Offsets.span, Span.shift, start, finish, stop]
  split <;> rfl

end Lines

end PolicyLevers.Script
