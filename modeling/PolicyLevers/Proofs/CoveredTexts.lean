import PolicyLevers.Proofs.ScannedGaps

/-!
# Texts of spans

The bytes between two places of a script are the text between them: from the start of a token to the end
of another, or up to the start of the token behind that one.
-/

namespace PolicyLevers.Script

set_option autoImplicit false

/-- The bytes of a span are those of a part of a text. -/
def Span.Covers (span : Span) (text part : List Char) : Prop :=
  ∃ before after, text = before ++ (part ++ after) ∧
    span = ⟨Text.bytes before, Text.bytes (before ++ part)⟩

theorem last_stop (offset : Nat) (front : List Piece) (more : List Nat) :
    (offset :: ((tokenOffsets offset front).2.1 ++ more)).getD front.length 0 =
      (tokenOffsets offset front).2.2 := by
  induction front generalizing offset with
  | nil => rfl
  | cons piece front induction => exact induction _

theorem start_at_token (front behind : List Piece) (piece : Piece) (trailing : List Char) :
    (Offsets.ofScan ⟨front ++ piece :: behind, trailing⟩).startAt (behind.length + 1) =
      Text.bytes (Scan.text ⟨front, piece.leading⟩) := by
  have fronts := (token_offsets_length 0 front).1
  have finish := token_offsets_finish 0 ⟨front, piece.leading⟩
  rw [Nat.zero_add] at finish
  rw [← finish]
  have starts := starts_append 0 front ⟨piece :: behind, trailing⟩
  have index : front.length + (behind.length + 1 + 1) - (behind.length + 1 + 1) = front.length :=
    Nat.add_sub_cancel _ _
  simp only [Offsets.startAt, offsets_of_scan, starts, List.length_append, fronts, starts_length,
    List.length_cons, index]
  rw [List.getD_append_right _ _ _ _ (by omega), fronts, Nat.sub_self]
  rfl

theorem stop_at_token (front behind : List Piece) (trailing : List Char) :
    (Offsets.ofScan ⟨front ++ behind, trailing⟩).stopAt behind.length =
      Text.bytes (Scan.text ⟨front, []⟩) := by
  have fronts := (token_offsets_length 0 front).2
  have finish := token_offsets_finish 0 ⟨front, []⟩
  have stops := stops_append 0 front ⟨behind, trailing⟩
  have index : front.length + behind.length + 1 - (behind.length + 1) = front.length := by omega
  simp only [Offsets.stopAt, offsets_of_scan, stops, List.length_cons, List.length_append, fronts,
    stops_length, index]
  rw [last_stop, ← Nat.zero_add (Text.bytes _), ← finish]
  rfl

theorem text_gap (front : List Piece) (gap : List Char) :
    Scan.text ⟨front, gap⟩ = Scan.text ⟨front, []⟩ ++ gap := by
  have apart := text_append front [] gap
  rwa [List.append_nil] at apart

theorem text_through (front inner : List Piece) (first : Piece) (gap : List Char) :
    Scan.text ⟨front ++ first :: inner, gap⟩ =
      Scan.text ⟨front, first.leading⟩ ++ (first.token.text ++ Scan.text ⟨inner, gap⟩) := by
  rw [text_append, text_gap front first.leading, List.append_assoc]
  rfl

section Covered

variable {source trailing : List Char} {front inner behind : List Piece} {first next : Piece}

/-- Tokens cover their text with the gaps between them. -/
theorem tokens_covered (scanned : scan source = ⟨front ++ first :: (inner ++ behind), trailing⟩) :
    ((Offsets.ofScan (scan source)).span
      ⟨inner.length + behind.length + 1, behind.length, false⟩).Covers source
        (first.token.text ++ Scan.text ⟨inner, []⟩) := by
  have start := start_at_token front (inner ++ behind) first trailing
  have stop := stop_at_token (front ++ first :: inner) behind trailing
  rw [List.length_append] at start
  rw [List.append_assoc, List.cons_append] at stop
  have whole := scan_text source
  rw [scanned] at whole ⊢
  refine ⟨Scan.text ⟨front, first.leading⟩, Scan.text ⟨behind, trailing⟩, ?_, ?_⟩
  · rw [← whole, text_through, text_append inner, List.append_assoc]
  · unfold Offsets.span
    simp only [Bool.false_eq_true, if_false]
    rw [start, stop, text_through]

theorem spaced_tokens_covered
    (scanned : scan source = ⟨front ++ first :: (inner ++ next :: behind), trailing⟩) :
    ((Offsets.ofScan (scan source)).span
      ⟨inner.length + (behind.length + 1) + 1, behind.length + 1, true⟩).Covers source
        (first.token.text ++ Scan.text ⟨inner, next.leading⟩) := by
  have start := start_at_token front (inner ++ next :: behind) first trailing
  have stop := start_at_token (front ++ first :: inner) behind next trailing
  rw [List.length_append, List.length_cons] at start
  rw [List.append_assoc, List.cons_append] at stop
  have whole := scan_text source
  rw [scanned] at whole ⊢
  refine ⟨Scan.text ⟨front, first.leading⟩, next.token.text ++ Scan.text ⟨behind, trailing⟩, ?_, ?_⟩
  · rw [← whole, text_through, text_through inner, List.append_assoc]
  · unfold Offsets.span
    simp only [if_true]
    rw [start, stop, text_through]

end Covered

end PolicyLevers.Script
