import Mathlib.Data.List.Basic
import PolicyLevers.Proofs.JoinedScans
import PolicyLevers.Proofs.ScannedNumbers

/-!
# Gaps between tokens

What stands between two tokens of a text, or at one of its ends, can be filled otherwise: with other blanks
and closed comments in the place of a part of it, the text is scanned as the same tokens with that one gap
changed.
-/

namespace PolicyLevers.Script

set_option autoImplicit false

/-- Blanks and comments, each comment closed by the end of its line. -/
inductive Filling : List Char → Prop where
  | nothing : Filling []
  | blank {c : Char} {rest : List Char} (space : isSpace c = true) (others : Filling rest) :
      Filling (c :: rest)
  | comment {mark line rest : List Char} (opens : mark = ['#'] ∨ mark = ['/', '/'])
      (inLine : '\n' ∉ line) (others : Filling rest) : Filling (mark ++ line ++ '\n' :: rest)

theorem Filling.append {first second : List Char} (front : Filling first) (back : Filling second) :
    Filling (first ++ second) := by
  induction front with
  | nothing => exact back
  | blank space _ induction => exact .blank space induction
  | comment opens inLine _ induction =>
      rw [List.append_assoc]
      exact .comment opens inLine induction

theorem split_gap_line_end {line : List Char} (inLine : '\n' ∉ line) (rest : List Char) :
    splitGap true (line ++ '\n' :: rest) =
      (line ++ '\n' :: (splitGap false rest).1, (splitGap false rest).2) := by
  induction line with
  | nil => simp [splitGap]
  | cons c line induction =>
      obtain ⟨other, later⟩ := not_or.mp (fun member => inLine (List.mem_cons.mpr member))
      simp [splitGap, Ne.symm other, induction later]

theorem Filling.split_gap {filling : List Char} (fills : Filling filling) (rest : List Char) :
    splitGap false (filling ++ rest) =
      (filling ++ (splitGap false rest).1, (splitGap false rest).2) := by
  induction fills with
  | nothing => rfl
  | blank space _ induction => simp [splitGap, space, induction]
  | @comment mark line others opens inLine _ induction =>
      rw [List.append_assoc, List.append_assoc, List.cons_append]
      have closes := split_gap_line_end inLine (others ++ rest)
      rw [induction] at closes
      rcases opens with rfl | rfl
      · simp [splitGap, isSpace, closes]
      · simp [splitGap, isSpace, closes]

/-- A text is scanned behind a filling as it is scanned alone. -/
theorem Filling.scan_behind {filling : List Char} (fills : Filling filling) (text : List Char) :
    scan (filling ++ text) = (scan text).behind filling := by
  have gap := fills.split_gap text
  cases found : splitToken (splitGap false text).2 with
  | none =>
      have nothing : splitToken (splitGap false (filling ++ text)).2 = none := by
        rw [gap]
        exact found
      rw [scan_nothing nothing, scan_nothing found]
      rfl
  | some result =>
      obtain ⟨token, rest⟩ := result
      have next : splitToken (splitGap false (filling ++ text)).2 = some (token, rest) := by
        rw [gap]
        exact found
      rw [scan_token next, scan_token found, gap]
      rfl

/-! ## Where a gap ends -/

/-- The text starts with a token or is empty. -/
def Visible (text : List Char) : Prop := splitGap false text = ([], text)

theorem split_gap_visible_rest (inComment : Bool) (text : List Char) :
    Visible (splitGap inComment text).2 := by
  unfold Visible
  induction text generalizing inComment with
  | nil => rfl
  | cons c text induction =>
      cases inComment with
      | true => exact induction _
      | false =>
          by_cases space : isSpace c = true
          · simpa [splitGap, space] using induction false
          · by_cases comment : (c = '#' || (c = '/' && text.head? = some '/')) = true
            · simpa [splitGap, space, comment] using induction true
            · simp [splitGap, space, comment]

theorem visible_cons_iff {c : Char} {rest : List Char} :
    Visible (c :: rest) ↔ isSpace c = false ∧ c ≠ '#' ∧ ¬(c = '/' ∧ rest.head? = some '/') := by
  unfold Visible
  by_cases space : isSpace c = true
  · simp [splitGap, space]
  · by_cases comment : (c = '#' || (c = '/' && rest.head? = some '/')) = true
    · simp only [splitGap, space, comment, if_true, if_false, Bool.false_eq_true]
      simp only [Bool.or_eq_true, Bool.and_eq_true, decide_eq_true_eq] at comment
      simp only [Prod.mk.injEq, List.cons_ne_nil, false_and, false_iff]
      rintro ⟨_, other, noSlashes⟩
      exact noSlashes (comment.resolve_left other)
    · simp only [splitGap, space, comment, if_false, Bool.false_eq_true]
      simp only [Bool.or_eq_true, Bool.and_eq_true, decide_eq_true_eq, not_or] at comment
      simp [comment]

theorem visible_front {text more : List Char} (visible : Visible (text ++ more)) : Visible text := by
  cases text with
  | nil => rfl
  | cons c text =>
      rw [List.cons_append] at visible
      obtain ⟨noSpace, noComment, noSlashes⟩ := visible_cons_iff.mp visible
      refine visible_cons_iff.mpr ⟨noSpace, noComment, ?_⟩
      rintro ⟨slash, second⟩
      exact noSlashes ⟨slash, by rw [List.head?_append, second]; rfl⟩

theorem comment_not_ended {text : List Char} (visible : text ≠ []) : splitGap true text ≠ ([], text) := by
  cases text with
  | nil => exact absurd rfl visible
  | cons c text => simp [splitGap]

/-- A gap ends where the next token starts, whichever token that is. -/
theorem split_gap_swap {inComment : Bool} {gap text other : List Char}
    (found : splitGap inComment (gap ++ text) = (gap, text)) (present : text ≠ [])
    (visible : Visible other) : splitGap inComment (gap ++ other) = (gap, other) := by
  induction gap generalizing inComment with
  | nil =>
      cases inComment with
      | true => exact absurd found (comment_not_ended present)
      | false => exact visible
  | cons c gap induction =>
      have next {deeper : Bool} (rest : (c :: (splitGap deeper (gap ++ text)).1,
          (splitGap deeper (gap ++ text)).2) = (c :: gap, text)) :
          (c :: (splitGap deeper (gap ++ other)).1, (splitGap deeper (gap ++ other)).2) =
            (c :: gap, other) := by
        have inner : splitGap deeper (gap ++ text) = (gap, text) := by simpa [Prod.ext_iff] using rest
        rw [induction inner]
      cases inComment with
      | true =>
          simp only [List.cons_append, splitGap, if_true] at found ⊢
          exact next found
      | false =>
          simp only [List.cons_append, splitGap, Bool.false_eq_true, if_false] at found ⊢
          by_cases space : isSpace c = true
          · simp only [space, if_true] at found ⊢
            exact next found
          · simp only [space, if_false, Bool.false_eq_true] at found ⊢
            by_cases comment : (c = '#' || (c = '/' && (gap ++ text).head? = some '/')) = true
            · have stays : (c = '#' || (c = '/' && (gap ++ other).head? = some '/')) = true := by
                cases gap with
                | cons second gap => exact comment
                | nil =>
                    -- A second slash would belong to the gap and not to the token behind it.
                    simp only [comment, if_true] at found
                    have inner : splitGap true text = ([], text) := by
                      simpa [Prod.ext_iff] using found
                    exact absurd inner (comment_not_ended present)
              simp only [comment, stays, if_true] at found ⊢
              exact next found
            · rw [if_neg comment] at found
              cases found

/-- What is left of a gap is split off behind any part of it, perhaps inside a comment. -/
theorem split_gap_later {inComment : Bool} {gap rest text : List Char}
    (found : splitGap inComment (gap ++ rest) = (gap ++ text, rest.drop text.length)) :
    ∃ deeper, splitGap deeper rest = (text, rest.drop text.length) := by
  induction gap generalizing inComment with
  | nil => exact ⟨inComment, found⟩
  | cons c gap induction =>
      have next {deeper : Bool} (same : (c :: (splitGap deeper (gap ++ rest)).1,
          (splitGap deeper (gap ++ rest)).2) = (c :: (gap ++ text), rest.drop text.length)) :
          ∃ deeper, splitGap deeper rest = (text, rest.drop text.length) := by
        apply induction
        simpa [Prod.ext_iff] using same
      rw [List.cons_append, List.cons_append, splitGap] at found
      split at found
      · exact next found
      · split at found
        · exact next found
        · split at found
          · exact next found
          · cases found

theorem split_gap_in_line {inComment : Bool} {back tail : List Char}
    (found : splitGap true (back ++ tail) = (back, tail)) (present : tail ≠ [])
    (blank : (splitGap inComment back).2 = []) : splitGap inComment (back ++ tail) = (back, tail) := by
  induction back generalizing inComment with
  | nil => exact absurd found (comment_not_ended present)
  | cons c back induction =>
      have later : splitGap (!decide (c = '\n')) (back ++ tail) = (back, tail) := by
        simpa [splitGap, Prod.ext_iff] using found
      -- Behind the end of a line no comment is open, whether it was one before or not.
      have closed (line : c = '\n') : splitGap inComment (c :: back ++ tail) = (c :: back, tail) := by
        subst line
        cases inComment with
        | true => exact found
        | false =>
            have next : splitGap false (back ++ tail) = (back, tail) := later
            simp [splitGap, isSpace, next]
      by_cases line : c = '\n'
      · exact closed line
      · have inside : splitGap true (back ++ tail) = (back, tail) := by simpa [line] using later
        have next {deeper : Bool} (rest : (splitGap deeper back).2 = []) :
            splitGap deeper (back ++ tail) = (back, tail) := induction inside rest
        cases inComment with
        | true => exact found
        | false =>
            by_cases space : isSpace c = true
            · simp only [splitGap, space, if_true, Bool.false_eq_true, if_false] at blank
              simp [splitGap, space, next blank]
            · by_cases comment : (c = '#' || (c = '/' && back.head? = some '/')) = true
              · simp only [splitGap, space, comment, if_true, Bool.false_eq_true, if_false] at blank
                have stays : (c = '#' || (c = '/' && (back ++ tail).head? = some '/')) = true := by
                  cases back with
                  | nil =>
                      have hash : c = '#' := by simpa using comment
                      simp [hash]
                  | cons second back => exact comment
                simp only [List.cons_append, splitGap, space, stays, if_true, Bool.false_eq_true,
                  if_false]
                rw [next blank]
              · simp [splitGap, space, comment] at blank

/-! ## Gaps as the grammar sees them -/

theorem gap_none_iff {text : List Char} : Gap.ofText text = .none ↔ text = [] := by
  unfold Gap.ofText
  cases text with
  | nil => simp
  | cons c rest =>
      simp only [List.isEmpty_cons, Bool.false_eq_true, if_false, List.cons_ne_nil, iff_false]
      split <;> simp

theorem gap_comment_iff {text : List Char} : Gap.ofText text = .comment ↔ text.all isSpace = false := by
  unfold Gap.ofText
  cases text with
  | nil => simp
  | cons c rest => simp

/-! ## Parts of a scan -/

theorem text_append (front behind : List Piece) (trailing : List Char) :
    Scan.text ⟨front ++ behind, trailing⟩ = Scan.text ⟨front, []⟩ ++ Scan.text ⟨behind, trailing⟩ := by
  unfold Scan.text
  induction front with
  | nil => rfl
  | cons piece front induction => simp only [List.cons_append, List.foldr_cons, induction, List.append_assoc]

theorem scan_cons {source : List Char} {piece : Piece} {pieces : List Piece} {trailing : List Char}
    (scanned : scan source = ⟨piece :: pieces, trailing⟩) :
    ∃ rest, source = piece.leading ++ (piece.token.text ++ rest) ∧
      splitGap false source = (piece.leading, piece.token.text ++ rest) ∧
      splitToken (piece.token.text ++ rest) = some (piece.token, rest) ∧
      scan rest = ⟨pieces, trailing⟩ := by
  cases found : splitToken (splitGap false source).2 with
  | none =>
      rw [scan_nothing found] at scanned
      cases scanned
  | some result =>
      obtain ⟨token, rest⟩ := result
      rw [scan_token found] at scanned
      cases scanned
      obtain ⟨whole, _⟩ := split_token_append found
      refine ⟨rest, ?_, ?_, ?_, rfl⟩
      · rw [whole, split_gap_append]
      · rw [whole]
      · rw [whole]
        exact found

/-- What is left of a text behind some of its tokens is scanned as the others. -/
theorem scan_rest {source : List Char} {front behind : List Piece} {trailing : List Char}
    (scanned : scan source = ⟨front ++ behind, trailing⟩) :
    scan (Scan.text ⟨behind, trailing⟩) = ⟨behind, trailing⟩ := by
  induction front generalizing source with
  | nil =>
      have same := scan_text source
      rw [scanned, List.nil_append] at same
      rw [same, scanned, List.nil_append]
  | cons piece front induction =>
      obtain ⟨rest, _, _, _, others⟩ := scan_cons scanned
      exact induction others

/-! ## The tokens in front of a gap -/

theorem gap_start {c : Char} {rest : List Char} (gap : (splitGap false (c :: rest)).1 ≠ []) :
    isSpace c = true ∨ c = '#' ∨ c = '/' ∧ rest.head? = some '/' := by
  by_cases space : isSpace c = true
  · exact Or.inl space
  · by_cases comment : (c = '#' || (c = '/' && rest.head? = some '/')) = true
    · simpa using Or.inr comment
    · simp [splitGap, space, comment] at gap

theorem gap_ends_token {c : Char} {rest : List Char} (gap : (splitGap false (c :: rest)).1 ≠ []) :
    endsToken c = true := by
  rcases gap_start gap with space | rfl | ⟨rfl, _⟩
  · exact space_ends_token space
  · decide
  · decide

/-- No token that two slashes follow ends in one: it would belong to their comment. -/
theorem slashes_apart {rest : List Char} {token : Token}
    (found : splitToken token.text = some (token, []))
    (visible : Visible (token.text ++ '/' :: rest)) : token.text.getLast? ≠ some '/' := by
  intro last
  have member := List.mem_of_getLast? last
  rcases scanned_parts found with ⟨c, rfl⟩ | parts
  · obtain rfl : c = '/' := by simpa [Token.text] using last
    simp [Visible, Token.text, splitGap, isSpace] at visible
  · have part := parts '/' member
    cases part

/-- In front of a gap the tokens are the same whatever the gap is, and none that a slash could make part of
a comment touches it. -/
theorem scan_front {source : List Char} {front behind : List Piece} {trailing : List Char} {c : Char}
    {rest : List Char} (scanned : scan source = ⟨front ++ behind, trailing⟩)
    (follows : Scan.text ⟨behind, trailing⟩ = c :: rest)
    (gap : (splitGap false (c :: rest)).1 ≠ []) :
    scan (Scan.text ⟨front, []⟩) = ⟨front, []⟩ ∧
      (c = '/' → (Scan.text ⟨front, []⟩).getLast? ≠ some '/') := by
  have ends := gap_ends_token gap
  induction front generalizing source with
  | nil => exact ⟨scan_nothing rfl, fun _ => by simp [Scan.text]⟩
  | cons piece front induction =>
      rw [List.cons_append] at scanned
      obtain ⟨after, rfl, split, found, others⟩ := scan_cons scanned
      obtain ⟨alone, apart⟩ := induction others
      have whole : after = Scan.text ⟨front, []⟩ ++ c :: rest := by
        have same := scan_text after
        rw [others, text_append, follows] at same
        exact same.symm
      change scan (piece.leading ++ (piece.token.text ++ Scan.text ⟨front, []⟩)) = _ ∧
        (_ → (piece.leading ++ (piece.token.text ++ Scan.text ⟨front, []⟩)).getLast? ≠ _)
      generalize Scan.text ⟨front, []⟩ = text at *
      subst whole
      -- The token is split off alike without the gap, for it ends before.
      have first : splitToken (piece.token.text ++ text) = some (piece.token, text) := by
        cases own : splitToken (piece.token.text ++ text) with
        | none =>
            have empty := split_token_nothing own
            exact absurd (List.append_eq_nil_iff.mp empty).1 (split_token_append found).2
        | some result =>
            have longer := split_token_stop ends own rest
            rw [List.append_assoc, found] at longer
            simp only [Option.some.injEq, Prod.mk.injEq, List.append_left_inj] at longer
            obtain ⟨same, rfl⟩ := longer
            rw [same]
      have seen : Visible (piece.token.text ++ text ++ c :: rest) := by
        have visible := split_gap_visible_rest false
          (piece.leading ++ (piece.token.text ++ (text ++ c :: rest)))
        rwa [split, ← List.append_assoc] at visible
      have gap := split_gap_swap split (by simp) (visible_front seen)
      refine ⟨?_, ?_⟩
      · have next : splitToken (splitGap false (piece.leading ++ (piece.token.text ++ text))).2 =
            some (piece.token, text) := by
          rw [gap]
          exact first
        rw [scan_token next, gap, alone]
      · rintro rfl
        cases text with
        | nil =>
            rw [List.append_nil] at first seen ⊢
            rw [List.getLast?_append_of_ne_nil _ (split_token_append found).2]
            exact slashes_apart first seen
        | cons second text =>
            rw [← List.append_assoc, List.getLast?_append_of_ne_nil _ (List.cons_ne_nil _ _)]
            exact apart rfl

/-! ## Other gaps -/

/-- The blanks and comments in front of every token, and behind the last. -/
def Scan.gaps (scanned : Scan) : List (List Char) :=
  scanned.pieces.map Piece.leading ++ [scanned.trailing]

def Scan.refill (scanned : Scan) (index : Nat) (gap : List Char) : Scan :=
  if index < scanned.pieces.length then
    ⟨scanned.pieces.modify index (fun piece => ⟨gap, piece.token⟩), scanned.trailing⟩
  else ⟨scanned.pieces, gap⟩

/-- A gap is the last one or that of some token, and it is refilled there. -/
theorem gap_cases {scanned : Scan} {index : Nat} {gap : List Char}
    (here : scanned.gaps[index]? = some gap) :
    (scanned.trailing = gap ∧ ∀ other, scanned.refill index other = ⟨scanned.pieces, other⟩) ∨
      ∃ front token behind,
        scanned = ⟨front ++ ⟨gap, token⟩ :: behind, scanned.trailing⟩ ∧
        ∀ other, scanned.refill index other = ⟨front ++ ⟨other, token⟩ :: behind, scanned.trailing⟩ := by
  obtain ⟨pieces, trailing⟩ := scanned
  unfold Scan.gaps at here
  by_cases inside : index < pieces.length
  · right
    have split := List.take_append_drop index pieces
    rw [List.drop_eq_getElem_cons inside] at split
    have own : pieces[index].leading = gap := by
      simpa [List.getElem?_append_left, inside] using here
    refine ⟨pieces.take index, pieces[index].token, pieces.drop (index + 1), ?_, ?_⟩
    · rw [← own, split]
    · intro other
      unfold Scan.refill
      rw [if_pos inside, List.modify_eq_take_cons_drop inside]
  · left
    have last : index = pieces.length := by
      have bound := (List.getElem?_eq_some_iff.mp here).1
      simp at bound
      omega
    subst last
    refine ⟨by simpa using here, ?_⟩
    intro other
    exact if_neg inside

theorem gap_end_stays {gap back tail : List Char}
    (found : splitGap false (gap ++ back ++ tail) = (gap ++ back, tail)) (present : tail ≠ [])
    (blank : (splitGap false back).2 = []) : splitGap false (back ++ tail) = (back, tail) := by
  have dropped : (back ++ tail).drop back.length = tail := List.drop_left
  have later : ∃ deeper, splitGap deeper (back ++ tail) = (back, (back ++ tail).drop back.length) :=
    split_gap_later (by rw [dropped, ← List.append_assoc]; exact found)
  rw [dropped] at later
  obtain ⟨deeper, split⟩ := later
  cases deeper with
  | false => exact split
  | true => exact split_gap_in_line split present blank

/-- A run of blanks and comments in one of the gaps of a text, and another one for its place. -/
structure GapChange (source : List Char) where
  index : Nat
  /-- What stays of the gap: its blanks and comments in front of the run and behind it. -/
  front : List Char
  back : List Char
  old : List Char
  /-- The run that takes its place: a blank, and more blanks and closed comments. -/
  blank : Char
  run : List Char
  here : (scan source).gaps[index]? = some (front ++ old ++ back)
  closed : Filling front
  visible : old ≠ []
  apart : (splitGap false back).2 = []
  space : isSpace blank = true
  fills : Filling run

namespace GapChange

variable {source : List Char} (change : GapChange source)

def before : List Char := change.front ++ change.old ++ change.back

def gap : List Char := change.front ++ change.blank :: change.run ++ change.back

def text : List Char := ((scan source).refill change.index change.gap).text

theorem before_visible : change.before ≠ [] := by simp [before, change.visible]

theorem gap_visible : change.gap ≠ [] := by simp [gap]

theorem starts (tail : List Char) :
    ∃ c rest d more, change.before ++ tail = c :: rest ∧ change.gap ++ tail = d :: more ∧
      endsToken d = true ∧ (d = '/' → c = '/') := by
  unfold before gap
  have closed := change.closed
  generalize change.front = front at closed
  cases front with
  | nil =>
      obtain ⟨c, rest, old⟩ := List.exists_cons_of_ne_nil change.visible
      rw [old]
      refine ⟨_, _, _, _, rfl, rfl, space_ends_token change.space, ?_⟩
      intro slash
      have space := change.space
      rw [slash] at space
      cases space
  | cons c front =>
      refine ⟨_, _, _, _, rfl, rfl, ?_, id⟩
      have split := closed.split_gap []
      rw [List.append_nil] at split
      have start : (splitGap false (c :: front)).1 ≠ [] := by
        rw [split]
        exact List.cons_ne_nil _ _
      exact gap_ends_token start

theorem scan_in_front {pieces behind : List Piece} {trailing tail : List Char}
    (scanned : scan source = ⟨pieces ++ behind, trailing⟩)
    (follows : Scan.text ⟨behind, trailing⟩ = change.before ++ tail)
    (gap : (splitGap false (change.before ++ tail)).1 ≠ []) :
    scan (Scan.text ⟨pieces, []⟩ ++ (change.gap ++ tail)) =
      ⟨pieces ++ (scan (change.gap ++ tail)).pieces, (scan (change.gap ++ tail)).trailing⟩ := by
  obtain ⟨c, rest, d, more, own, other, ends, slash⟩ := change.starts tail
  rw [own] at follows gap
  obtain ⟨alone, apart⟩ := scan_front scanned follows gap
  rw [other, scan_stop ends (fun same => apart (slash same)), alone, List.nil_append]

theorem split_gap_filled (rest : List Char) :
    splitGap false (change.gap ++ rest) =
      (change.front ++ change.blank :: change.run ++ (splitGap false (change.back ++ rest)).1,
        (splitGap false (change.back ++ rest)).2) := by
  unfold gap
  rw [List.append_assoc]
  exact (change.closed.append (.blank change.space change.fills)).split_gap _

theorem scan_last_gap (trailing : (scan source).trailing = change.before) :
    scan (Scan.text ⟨(scan source).pieces, change.gap⟩) = ⟨(scan source).pieces, change.gap⟩ := by
  have whole : splitGap false change.before = (change.before, []) := by
    have last := scan_trailing_blank source
    rw [trailing] at last
    have together := split_gap_append false change.before
    rw [last, List.append_nil] at together
    exact Prod.ext together last
  have scanned : scan source = ⟨(scan source).pieces ++ [], (scan source).trailing⟩ := by
    rw [List.append_nil]
  have follows : Scan.text ⟨[], (scan source).trailing⟩ = change.before ++ [] := by
    rw [List.append_nil]
    exact trailing
  have present : (splitGap false (change.before ++ [])).1 ≠ [] := by
    rw [List.append_nil, whole]
    exact change.before_visible
  have split := change.scan_in_front scanned follows present
  have nothing : scan change.gap = ⟨[], change.gap⟩ := by
    apply scan_nothing
    have filled := change.split_gap_filled []
    rw [List.append_nil, List.append_nil, change.apart] at filled
    rw [filled]
    rfl
  rw [List.append_nil, nothing, List.append_nil] at split
  have together := text_append (scan source).pieces [] change.gap
  rw [List.append_nil] at together
  rw [together]
  exact split

theorem scan_inner_gap {pieces behind : List Piece} {token : Token} {trailing : List Char}
    (scanned : scan source = ⟨pieces ++ ⟨change.before, token⟩ :: behind, trailing⟩) :
    scan (Scan.text ⟨pieces ++ ⟨change.gap, token⟩ :: behind, trailing⟩) =
      ⟨pieces ++ ⟨change.gap, token⟩ :: behind, trailing⟩ := by
  obtain ⟨rest, together, split, found, others⟩ := scan_cons (scan_rest scanned)
  rw [together] at split
  have present : token.text ++ rest ≠ [] := by simp [(split_token_append found).2]
  have last : splitGap false (change.back ++ (token.text ++ rest)) =
      (change.back, token.text ++ rest) := gap_end_stays split present change.apart
  have filled : splitGap false (change.gap ++ (token.text ++ rest)) =
      (change.gap, token.text ++ rest) := by
    rw [split_gap_filled, last]
    rfl
  have next : splitToken (splitGap false (change.gap ++ (token.text ++ rest))).2 =
      some (token, rest) := by
    rw [filled]
    exact found
  have whole := change.scan_in_front scanned together
    (by rw [split]; exact change.before_visible)
  rw [scan_token next, filled, others] at whole
  have behindText : Scan.text ⟨behind, trailing⟩ = rest := by
    have same := scan_text rest
    rwa [others] at same
  rw [text_append]
  change scan (_ ++ (_ ++ (token.text ++ Scan.text ⟨behind, trailing⟩))) = _
  rw [behindText]
  exact whole

/-- With another run in a gap the text is scanned as the same tokens. -/
theorem scan_changed : scan change.text = (scan source).refill change.index change.gap := by
  unfold text
  rcases gap_cases change.here with ⟨trailing, refilled⟩ | ⟨pieces, token, behind, scanned, refilled⟩
  · rw [refilled]
    exact change.scan_last_gap trailing
  · rw [refilled]
    exact change.scan_inner_gap scanned

end GapChange

end PolicyLevers.Script
