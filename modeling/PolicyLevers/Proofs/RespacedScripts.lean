import PolicyLevers.Proofs.CompactLabels
import PolicyLevers.Proofs.NestingHeight
import PolicyLevers.Proofs.RespacedTokens

/-!
# Scripts with other gaps

Blanks and comments between tokens can be replaced by others without changing what a script says.  Only
between the sign of a number and its digits a comment is out of place: the number would not read as one.
-/

namespace PolicyLevers.Script

set_option autoImplicit false

theorem lexemes_refill (scanned : Scan) (index : Nat) (gap : List Char) :
    (scanned.refill index gap).lexemes =
      scanned.lexemes.modify index (fun lexeme => ⟨Gap.ofText gap, lexeme.token⟩) := by
  unfold Scan.refill Scan.lexemes
  split
  · apply List.ext_getElem?
    intro place
    simp only [List.getElem?_map, List.getElem?_modify]
    split <;> simp [Function.comp_def]
  · rename_i outside
    rw [List.modify_eq_self (by simpa using outside)]

namespace GapChange

variable {source : List Char} (change : GapChange source)

theorem lexemes_changed :
    (scan change.text).lexemes =
      (scan source).lexemes.modify change.index
        (fun lexeme => ⟨Gap.ofText change.gap, lexeme.token⟩) := by
  rw [scan_changed, lexemes_refill]

/-- The gap that changes stands in front of the token of the same index. -/
theorem lexeme_before {lexeme : Lexeme}
    (own : (scan source).lexemes[change.index]? = some lexeme) :
    lexeme.gap = Gap.ofText change.before := by
  have here : (scan source).gaps[change.index]? = some change.before := change.here
  unfold Scan.lexemes at own
  rw [List.getElem?_map] at own
  obtain ⟨piece, found, rfl⟩ := Option.map_eq_some_iff.mp own
  have inside := (List.getElem?_eq_some_iff.mp found).1
  unfold Scan.gaps at here
  rw [List.getElem?_append_left (by simpa using inside), List.getElem?_map, found] at here
  rw [Option.some.inj here]

theorem lexemes_alike : List.Forall₂ Lexeme.Alike (scan source).lexemes (scan change.text).lexemes := by
  rw [lexemes_changed]
  apply List.forall₂_iff_get.mpr
  refine ⟨(List.length_modify ..).symm, ?_⟩
  intro place inside _
  rw [List.get_eq_getElem, List.get_eq_getElem, List.getElem_modify]
  split
  · rename_i same
    subst same
    have before := change.lexeme_before (List.getElem?_eq_getElem inside)
    refine ⟨rfl, ?_⟩
    rw [before, gap_none_iff, gap_none_iff]
    exact iff_of_false change.gap_visible change.before_visible
  · exact ⟨rfl, Iff.rfl⟩

end GapChange

/-! ## Numbers -/

/-- The token of this index, out of `count` of them, is the digits of the number, and it has a sign. -/
def Operand.SignedAt (count index : Nat) : Operand → Prop
  | .number extent (some _) _ => index + (extent.left + 1) = count
  | _ => False

instance (count index : Nat) : DecidablePred (Operand.SignedAt count index)
  | .number extent (some _) _ => inferInstanceAs (Decidable (index + (extent.left + 1) = count))
  | .number _ none _ | .path _ _ | .lifecycle _ _ | .uniform _ _ _ | .normal _ _ _
  | .repeated _ _ _ _ | .group _ _ => inferInstanceAs (Decidable False)

def SignGap (source : List Char) (index : Nat) : Prop :=
  ∃ reading ∈ (Grammar.read (scan source).lexemes).outcome, ∃ statement ∈ reading.1,
    ∃ number ∈ statement.form.numbers, number.SignedAt (scan source).pieces.length index

instance (source : List Char) (index : Nat) : Decidable (SignGap source index) :=
  inferInstanceAs (Decidable (∃ reading ∈ (Grammar.read (scan source).lexemes).outcome,
    ∃ statement ∈ reading.1, ∃ number ∈ statement.form.numbers,
      number.SignedAt (scan source).pieces.length index))

theorem digits_place {tokens : List Lexeme} {extent : Extent} {mark : Char} {gap : Gap}
    {digits : List Char} (stands : Operand.Stands tokens (.number extent (some (mark, gap)) digits)) :
    ∃ index, index + (extent.left + 1) = tokens.length ∧
      tokens[index]? = some ⟨gap, .digits digits⟩ := by
  obtain ⟨_, rest, ⟨before, rfl⟩, written⟩ := stands
  cases written with
  | signed first _ _ _ _ =>
      refine ⟨before.length + 1, ?_, ?_⟩
      · simp
        omega
      · simp

theorem Operand.Beside.unbroken {tokens others : List Lexeme} {number other : Operand}
    (both : Operand.Beside tokens others number other) (same : others.length = tokens.length)
    (whole : number.Unbroken)
    (kept : ∀ index lexeme moved, tokens[index]? = some lexeme → others[index]? = some moved →
      number.SignedAt tokens.length index → lexeme.gap ≠ .comment → moved.gap ≠ .comment) :
    other.Unbroken := by
  obtain ⟨place, first, second⟩ := both
  have ⟨_, ownRest, _, written⟩ := first
  have ⟨_, rest, _, moved⟩ := second
  cases moved with
  | unsigned =>
      intro mark member
      cases member
  | signed =>
      obtain ⟨later, behind, moved⟩ := digits_place second
      rintro _ ⟨⟩
      cases written with
      | unsigned =>
          have ahead := congrArg Extent.ahead place
          have left := congrArg Extent.left place
          dsimp only [Operand.extent] at ahead left
          omega
      | signed =>
          obtain ⟨index, before, own⟩ := digits_place first
          have left : rest.length = ownRest.length := congrArg Extent.left place
          obtain rfl : later = index := by
            dsimp only at before behind
            omega
          exact kept later _ _ own moved before (whole _ rfl)

/-- No comment comes between the sign of a number and its digits. -/
def GapChange.KeepsSigns {source : List Char} (change : GapChange source) : Prop :=
  SignGap source change.index → (change.blank :: change.run).all isSpace = true

instance {source : List Char} (change : GapChange source) : Decidable change.KeepsSigns :=
  inferInstanceAs (Decidable (SignGap source change.index → _))

theorem GapChange.numbers_unbroken {source : List Char} (change : GapChange source)
    (signs : change.KeepsSigns) {written : List WrittenStatement} {rest : List Lexeme}
    (found : (Grammar.read (scan source).lexemes).outcome = some (written, rest))
    {statement : WrittenStatement} (member : statement ∈ written) {number other : Operand}
    (inside : number ∈ statement.form.numbers)
    (both : Operand.Beside (scan source).lexemes (scan change.text).lexemes number other)
    (whole : number.Unbroken) : other.Unbroken := by
  apply both.unbroken change.lexemes_alike.length_eq.symm whole
  intro index lexeme moved own other signed blank
  rw [lexemes_changed, List.getElem?_modify, own] at other
  simp only [Option.map_eq_map, Option.map_some, Option.some.injEq] at other
  subst other
  by_cases here : change.index = index
  · rw [if_pos here]
    subst here
    rw [change.lexeme_before own] at blank
    have ownBlank : change.before.all isSpace = true := by
      simpa [gap_comment_iff] using blank
    have runBlank := signs ⟨(written, rest), found, statement, member, number, inside,
      by simpa [Scan.lexemes] using signed⟩
    change Gap.ofText change.gap ≠ .comment
    have gapBlank : change.gap.all isSpace = true := by
      unfold before at ownBlank
      unfold gap
      simp only [List.all_append, Bool.and_eq_true] at ownBlank ⊢
      exact ⟨⟨ownBlank.1.1, runBlank⟩, ownBlank.2⟩
    simp [Ne, gap_comment_iff, gapBlank]
  · rw [if_neg here]
    exact blank

/-! ## Reading -/

/-- A statement without faults has none with other gaps, if its numbers stay whole. -/
theorem faultless_respaced {tokens others : List Lexeme} {form moved : StatementForm} {limit : Nat}
    (alike : form.Alike tokens others moved) (faultless : form.faults limit = [])
    (kept : ∀ number ∈ form.numbers, ∀ other, Operand.Beside tokens others number other →
      number.Unbroken → other.Unbroken) : moved.faults limit = [] := by
  obtain ⟨whole, height⟩ := (StatementForm.faults_nil_iff limit form).mp faultless
  refine (StatementForm.faults_nil_iff limit moved).mpr ⟨?_, by rw [alike.height]; exact height⟩
  apply moved.unbroken_iff.mpr
  intro other member
  obtain ⟨number, inside, both⟩ := partner_of_forall₂ alike.numbers member
  exact kept number inside other both (form.unbroken_iff.mp whole number inside)

/-- Blanks and comments do not change what a script says: with another run of them in a gap the same
statements are read.  Each label is then what the other text of its expression says, and that is the same
too. -/
theorem respaced_scripts_say_the_same {limit : Nat} {source : String} {statements : List Statement}
    (accepted : parse limit source = .ok statements) (change : GapChange source.toList)
    (signs : change.KeepsSigns) :
    ∃ others, parse limit (String.ofList change.text) = .ok others ∧
      others.map Statement.kind = statements.map Statement.kind ∧
      (∀ statement ∈ statements, statement.Labelled source.toList) ∧
      ∀ other ∈ others, other.Labelled change.text := by
  have labels := labels_are_compact accepted
  obtain ⟨written, found, faultless, rfl⟩ := parse_ok_iff.mp accepted
  obtain ⟨moved, otherFound, alike⟩ := read_respaced change.lexemes_alike found
  have clean : ∀ other ∈ moved, other.form.faults limit = [] := by
    intro other member
    obtain ⟨statement, inside, same⟩ := partner_of_forall₂ alike member
    exact faultless_respaced same (faultless statement inside)
      (fun number own other both => change.numbers_unbroken signs found inside own both)
  have otherAccepted : parse limit (String.ofList change.text) =
      .ok (moved.map (WrittenStatement.placed (scan (String.ofList change.text).toList))) :=
    parse_ok_iff.mpr ⟨moved, by rw [String.toList_ofList]; exact otherFound, clean, rfl⟩
  have otherLabels := labels_are_compact otherAccepted
  rw [String.toList_ofList] at otherLabels otherAccepted
  refine ⟨_, otherAccepted, ?_, labels, otherLabels⟩
  have kinds : List.Forall₂ Eq (moved.map (fun other => other.form.toKind))
      (written.map (fun statement => statement.form.toKind)) :=
    List.forall₂_map_left_iff.mpr (List.forall₂_map_right_iff.mpr
      (List.Forall₂.flip (alike.imp (fun _ _ same => same.meaning))))
  rw [List.map_map, List.map_map]
  exact List.forall₂_eq_eq_eq ▸ kinds

/-- A sum over two lines, with a note behind the operator that looks like one for division. -/
def notedSum : String := "inspect a +\t// half / of\n2;\ny = - 1 ;"

def otherNote : GapChange notedSum.toList where
  index := 3
  front := ['\t']
  back := []
  old := "// half / of\n".toList
  blank := '\n'
  run := ['#'] ++ " as above //".toList ++ ['\n']
  here := by decide +kernel
  closed := .blank rfl .nothing
  visible := by decide
  apart := rfl
  space := rfl
  fills := .comment (.inl rfl) (by decide) .nothing

theorem other_note_says_the_same :
    String.ofList otherNote.text = "inspect a +\t\n# as above //\n2;\ny = - 1 ;" ∧
    ∃ others, parse 50 (String.ofList otherNote.text) = .ok others ∧
      others.map Statement.kind =
        [.inspect "a+2" (.binary .add (.path "a") (.number 2.0)), .assignment "y" (.number (-1.0))] := by
  have accepted : parse 50 notedSum = .ok
      [⟨⟨0, 26⟩, .inspect "a+2" (.binary .add (.path "a") (.number 2.0))⟩,
        ⟨⟨28, 36⟩, .assignment "y" (.number (-1.0))⟩] := by decide +kernel
  obtain ⟨others, accepted, kinds, _⟩ :=
    respaced_scripts_say_the_same accepted otherNote (by decide +kernel)
  exact ⟨by decide +kernel, others, accepted, kinds⟩

end PolicyLevers.Script
