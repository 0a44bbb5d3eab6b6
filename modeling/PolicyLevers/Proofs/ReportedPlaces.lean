import PolicyLevers.Proofs.RenderedNumbers
import PolicyLevers.Proofs.ReportLines
import PolicyLevers.Report.Render

/-!
# Places in reports

The second line of a report names the script, a line and a column.  A report takes the bytes of an error
for characters and has its own lines, so these are the line and column of a syntax error only if the text
in front of the error has characters of one byte each and breaks into the same lines in the report and in
the script.  Otherwise the report names another place, or none.
-/

namespace PolicyLevers.Report

set_option autoImplicit false

open PolicyLevers.Script (LineColumn Span SyntaxError SyntaxFault Expectation joinAlternatives concepts)

/-! ## The header of a report -/

def locationHeader (place : LineColumn) : String :=
  "╭─[ <script>:" ++ toString place.line ++ ":" ++ toString place.column ++ " ]"

/-- The second line of a report is the header with the place, behind blanks. -/
def NamesPlace (report : String) (place : LineColumn) : Prop :=
  ∃ title indent rest, '\n' ∉ title ∧ (∀ c ∈ indent, c = ' ') ∧
    report.toList = title ++ '\n' :: (indent ++ ((locationHeader place).toList ++ '\n' :: rest))

theorem front_unique {α : Type} {mark : α} {front other back rest : List α} (first : mark ∉ front)
    (second : mark ∉ other) (same : front ++ mark :: back = other ++ mark :: rest) :
    front = other ∧ back = rest := by
  induction front generalizing other with
  | nil =>
      cases other with
      | nil => exact ⟨rfl, (List.cons.inj same).2⟩
      | cons c other =>
          obtain ⟨rfl, _⟩ := List.cons.inj same
          exact absurd List.mem_cons_self second
  | cons c front induction =>
      cases other with
      | nil =>
          obtain ⟨rfl, _⟩ := List.cons.inj same
          exact absurd List.mem_cons_self first
      | cons d other =>
          simp only [List.cons_append, List.cons.injEq] at same
          obtain ⟨rfl, same⟩ := same
          obtain ⟨rfl, behind⟩ := induction (fun member => first (List.mem_cons_of_mem _ member))
            (fun member => second (List.mem_cons_of_mem _ member)) same
          exact ⟨rfl, behind⟩

theorem digits_without {value : Nat} {c : Char} (other : c.isDigit = false) : c ∉ Nat.toDigits 10 value := by
  intro member
  have digit := List.all_eq_true.mp (Decimal.digits_all value) c member
  rw [other] at digit
  cases digit

theorem digits_injective {value other : Nat} (same : Nat.toDigits 10 value = Nat.toDigits 10 other) :
    value = other := by
  rw [← Decimal.digits_value value, same, Decimal.digits_value]

theorem header_text (place : LineColumn) (rest : List Char) :
    (locationHeader place).toList ++ rest = '╭' :: ("─[ <script>:".toList ++
      (Nat.toDigits 10 place.line ++ ':' :: (Nat.toDigits 10 place.column ++ ' ' :: ']' :: rest))) := by
  have corner : "╭─[ <script>:".toList = '╭' :: "─[ <script>:".toList := by decide
  have colon : ":".toList = [':'] := by decide
  have closing : " ]".toList = [' ', ']'] := by decide
  unfold locationHeader
  simp only [String.toList_append, Nat.toString_eq_repr, Nat.toList_repr, corner, colon, closing,
    List.append_assoc, List.cons_append, List.nil_append]

theorem NamesPlace.unique {report : String} {place other : LineColumn} (named : NamesPlace report place)
    (again : NamesPlace report other) : place = other := by
  obtain ⟨title, indent, rest, line, blank, text⟩ := named
  obtain ⟨_, _, _, otherLine, otherBlank, otherText⟩ := again
  rw [text] at otherText
  obtain ⟨_, second⟩ := front_unique line otherLine otherText
  rw [header_text, header_text] at second
  obtain ⟨_, script⟩ := front_unique (fun corner => absurd (blank _ corner) (by decide))
    (fun corner => absurd (otherBlank _ corner) (by decide)) second
  have numbers := List.append_cancel_left script
  obtain ⟨lines, columns⟩ := front_unique (digits_without rfl) (digits_without rfl) numbers
  obtain ⟨columns, _⟩ := front_unique (digits_without rfl) (digits_without rfl) columns
  obtain ⟨line, column⟩ := place
  obtain rfl : line = other.line := digits_injective lines
  obtain rfl : column = other.column := digits_injective columns
  rfl

/-! ## The place that a report names -/

/-- The place of a stretch of bytes that is taken for one of characters; there is none if its start or its last
character lies behind the end of the text. -/
def reportedPlace? (source : List Char) (span : Span) : Option LineColumn :=
  let stop := min span.stop (Text.bytes source)
  let start := min span.start stop
  if start ≤ source.length ∧ (if start < stop then stop - 1 else start) ≤ source.length then
    some (walk ⟨1, 1⟩ source start)
  else none

theorem rendered_text {source : String} {diagnostic : Diagnostic} {span : Span}
    (placed : diagnostic.span = some span) :
    (render source diagnostic).toList =
      ("[" ++ diagnostic.code ++ "] Error: " ++ diagnostic.message).toList ++ '\n' ::
        (placeRows source.toList span diagnostic.message diagnostic.help).flatMap
          (fun row => row ++ ['\n']) := by
  unfold render
  rw [placed]
  simp only [String.toList_ofList, List.flatMap_cons, List.append_assoc, List.singleton_append]

/-- The rows of a report start with the header, and there are none if there is no place. -/
theorem place_rows_header (source : List Char) (span : Span) (message : String) (help : Option String) :
    match reportedPlace? source span with
    | none => placeRows source span message help = []
    | some place => ∃ width rows, placeRows source span message help =
        (List.replicate width ' ' ++ (locationHeader place).toList) :: rows := by
  unfold reportedPlace? placeRows
  dsimp only
  generalize min span.stop (Text.bytes source) = stop
  generalize min span.start stop = start
  generalize (if start < stop then stop - 1 else start) = last
  have first := @line_index_some_iff source start
  have final := @line_index_some_iff source last
  cases foundFirst : lineIndex? (sourceLines source) start with
  | none =>
      have outside : ¬start ≤ source.length := by simp [← first, foundFirst]
      rw [if_neg (fun both => outside both.1)]
  | some index =>
      have inside : start ≤ source.length := by simp [← first, foundFirst]
      cases foundFinal : lineIndex? (sourceLines source) last with
      | none =>
          have outside : ¬last ≤ source.length := by simp [← final, foundFinal]
          rw [if_neg (fun both => outside both.2)]
      | some _ =>
          have lastInside : last ≤ source.length := by simp [← final, foundFinal]
          rw [if_pos ⟨inside, lastInside⟩]
          dsimp only
          rw [← line_index_walk foundFirst]
          exact ⟨_, _, rfl⟩

/-- A report names the place that its stretch of bytes has if it is taken for one of characters. -/
theorem names_place_iff {source : String} {diagnostic : Diagnostic} {span : Span} {place : LineColumn}
    (placed : diagnostic.span = some span)
    (line : '\n' ∉ ("[" ++ diagnostic.code ++ "] Error: " ++ diagnostic.message).toList) :
    NamesPlace (render source diagnostic) place ↔ reportedPlace? source.toList span = some place := by
  have rows := place_rows_header source.toList span diagnostic.message diagnostic.help
  have text := @rendered_text source diagnostic span placed
  cases reported : reportedPlace? source.toList span with
  | none =>
      rw [reported] at rows
      refine iff_of_false ?_ (fun same => by cases same)
      rintro ⟨title, indent, rest, otherLine, _, otherText⟩
      rw [text, rows] at otherText
      obtain ⟨_, nothing⟩ := front_unique line otherLine otherText
      rw [header_text] at nothing
      simp at nothing
  | some own =>
      rw [reported] at rows
      obtain ⟨width, others, rows⟩ := rows
      have named : NamesPlace (render source diagnostic) own := by
        refine ⟨_, List.replicate width ' ', others.flatMap (fun row => row ++ ['\n']), line,
          fun c member => List.eq_of_mem_replicate member, ?_⟩
        rw [text, rows, List.flatMap_cons]
        simp only [List.append_assoc, List.singleton_append]
      rw [Option.some.injEq]
      constructor
      · intro again
        exact named.unique again
      · rintro rfl
        exact named

/-! ## Messages of syntax errors -/

theorem mem_intercalate {α : Type} {item : α} {separator : List α} {parts : List (List α)}
    (member : item ∈ separator.intercalate parts) : item ∈ separator ∨ ∃ part ∈ parts, item ∈ part := by
  induction parts using List.twoStepInduction with
  | nil => cases member
  | singleton part =>
      rw [List.intercalate_singleton] at member
      exact Or.inr ⟨part, List.mem_singleton_self part, member⟩
  | cons_cons first second parts _ induction =>
      rw [List.intercalate_cons_cons, List.append_assoc] at member
      rcases List.mem_append.mp member with own | behind
      · exact Or.inr ⟨first, List.mem_cons_self, own⟩
      · rcases List.mem_append.mp behind with between | later
        · exact Or.inl between
        · rcases induction second later with between | ⟨part, listed, inside⟩
          · exact Or.inl between
          · exact Or.inr ⟨part, List.mem_cons_of_mem _ listed, inside⟩

theorem concept_on_one_line (expectation : Expectation) : '\n' ∉ expectation.concept.toList := by
  unfold Expectation.concept
  split
  case h_2 spelling =>
      split
      · rename_i own
        have words : ∀ word ∈ ["if", "else", "to", "of", "by", "over", "across"], '\n' ∉ word.toList := by
          decide
        exact words spelling (List.contains_iff_mem.mp own)
      · split <;> decide
  all_goals decide

theorem alternatives_on_one_line {texts : List String} (line : ∀ text ∈ texts, '\n' ∉ text.toList) :
    '\n' ∉ (joinAlternatives texts).toList := by
  unfold joinAlternatives
  split
  · decide
  · exact line _ List.mem_cons_self
  · have comma : '\n' ∉ ", ".toList := by decide
    have or : '\n' ∉ " or ".toList := by decide
    simp only [String.toList_append, String.toList_intercalate, List.mem_append, not_or]
    refine ⟨⟨?_, or⟩, ?_⟩
    · intro member
      rcases mem_intercalate member with between | ⟨part, listed, inside⟩
      · exact comma between
      · obtain ⟨text, own, rfl⟩ := List.mem_map.mp listed
        exact line text (List.mem_of_mem_dropLast own) inside
    · rw [List.getLastD_eq_getLast?]
      cases last : texts.getLast? with
      | none => decide
      | some text => exact line text (List.mem_of_getLast? last)

theorem message_on_one_line (fault : SyntaxFault) : '\n' ∉ fault.message.toList := by
  cases fault with
  | unexpected expected =>
      have alternatives : '\n' ∉ (joinAlternatives (concepts expected)).toList := by
        refine alternatives_on_one_line ?_
        intro text member
        rw [concepts, List.mem_eraseDups, List.mem_map] at member
        obtain ⟨expectation, _, rfl⟩ := member
        exact concept_on_one_line expectation
      have front : '\n' ∉ "expected ".toList := by decide
      change '\n' ∉ ("expected " ++ joinAlternatives (concepts expected)).toList
      rw [String.toList_append, List.mem_append, not_or]
      exact ⟨front, alternatives⟩
  | tooDeep limit =>
      have front : '\n' ∉ "Expression nesting depth exceeds maximum of ".toList := by decide
      have back : '\n' ∉ " levels".toList := by decide
      change '\n' ∉ ("Expression nesting depth exceeds maximum of " ++ toString limit ++ " levels").toList
      simp only [String.toList_append, Nat.toString_eq_repr, Nat.toList_repr, List.mem_append, not_or]
      exact ⟨⟨front, digits_without rfl⟩, back⟩
  | brokenNumber => decide

theorem title_on_one_line (error : SyntaxError) :
    '\n' ∉ ("[" ++ (ScriptError.unreadable error).diagnostic.code ++ "] Error: " ++
      (ScriptError.unreadable error).diagnostic.message).toList := by
  have front : '\n' ∉ ("[" ++ "P001" ++ "] Error: ").toList := by decide
  rw [String.toList_append, List.mem_append, not_or]
  exact ⟨front, message_on_one_line error.fault⟩

/-! ## Syntax errors in reports -/

theorem bytes_at_least (text : List Char) : text.length ≤ Text.bytes text := by
  induction text with
  | nil => exact Nat.le_refl 0
  | cons c text induction =>
      have size := Char.utf8Size_pos c
      change text.length + 1 ≤ c.utf8Size + Text.bytes text
      omega

theorem bytes_length_iff {text : List Char} :
    Text.bytes text = text.length ↔ ∀ c ∈ text, c.utf8Size = 1 := by
  induction text with
  | nil => simp [Text.bytes]
  | cons c text induction =>
      have size := Char.utf8Size_pos c
      have least := bytes_at_least text
      have bytes : Text.bytes (c :: text) = c.utf8Size + Text.bytes text := rfl
      rw [bytes, List.length_cons, List.forall_mem_cons, ← induction]
      omega

theorem front_of_bytes {before after front back : List Char} (same : before ++ after = front ++ back)
    (bytes : Text.bytes before = Text.bytes front) : before = front ∧ after = back := by
  induction before generalizing front with
  | nil =>
      cases front with
      | nil => exact ⟨rfl, same⟩
      | cons c front => exact absurd bytes (Nat.ne_of_lt (Script.bytes_positive (List.cons_ne_nil c front)))
  | cons c before induction =>
      cases front with
      | nil =>
          exact absurd bytes.symm (Nat.ne_of_lt (Script.bytes_positive (List.cons_ne_nil c before)))
      | cons d front =>
          simp only [List.cons_append, List.cons.injEq] at same
          obtain ⟨rfl, same⟩ := same
          obtain ⟨rfl, behind⟩ := induction same (Nat.add_left_cancel bytes)
          exact ⟨rfl, behind⟩

/-- A stretch of bytes is found at its place in the script if the report counts the same characters and lines in
front of it, and its last byte, taken for a character, is not behind the end of the text. -/
theorem reported_place_iff {source before after : List Char} {span : Span} (split : source = before ++ after)
    (start : span.start = Text.bytes before) (ordered : span.start ≤ span.stop)
    (inside : span.stop ≤ Text.bytes source) (noFeed : after.head? ≠ some '\n') :
    reportedPlace? source span = some (before.foldl LineColumn.next ⟨1, 1⟩) ↔
      (∀ c ∈ before, c.utf8Size = 1) ∧ SameLines before after ∧ span.stop ≤ source.length + 1 := by
  have least := bytes_at_least before
  have front : before.length ≤ source.length := by simp [split]
  unfold reportedPlace?
  dsimp only
  rw [Nat.min_eq_left inside, Nat.min_eq_left ordered, Option.ite_none_right_eq_some, Option.some.injEq,
    ← bytes_length_iff]
  constructor
  · rintro ⟨⟨seen, last⟩, same⟩
    obtain ⟨bytes, lines⟩ := (walk_agrees_iff Nat.one_pos split (start ▸ least) seen noFeed).mp same
    refine ⟨start ▸ bytes, lines, ?_⟩
    split at last <;> omega
  · rintro ⟨bytes, lines, near⟩
    have length := start.trans bytes
    have seen : span.start ≤ source.length := by omega
    refine ⟨⟨seen, ?_⟩, (walk_agrees_iff Nat.one_pos split (start ▸ least) seen noFeed).mpr ⟨length, lines⟩⟩
    split <;> omega

/-- A syntax error starts where a token does, or at the end of the text. -/
theorem refused_start {limit : Nat} {source : String} {error : SyntaxError}
    (refused : Script.parse limit source = .error error) :
    ∃ ahead, error.span.start = (Script.Offsets.ofScan (Script.scan source.toList)).startAt ahead := by
  unfold Script.parse at refused
  dsimp only at refused
  split at refused
  · cases refused
    exact ⟨_, rfl⟩
  · split at refused
    · cases refused
      exact ⟨_, rfl⟩
    · cases refused

theorem visible_no_feed {text : List Char} (visible : Script.Visible text) : text.head? ≠ some '\n' := by
  cases text with
  | nil => simp
  | cons c rest =>
      rintro same
      obtain rfl := Option.some.inj same
      have blank := (Script.visible_cons_iff.mp visible).1
      cases blank

/-- The report of a syntax error names the line and column of the error exactly if all characters in front
of the error have one byte, the report breaks the text there into the same lines as the script, and the
last byte of the error, taken for a character, is not behind the end of the text. -/
theorem error_place_named_iff {limits : ScriptLimits} {source : String} {error : SyntaxError}
    (reported : ScriptError.unreadable error ∈ (compile limits source).errors) :
    ∃ before after, source.toList = before ++ after ∧ error.span.start = Text.bytes before ∧
      (NamesPlace (render source (ScriptError.unreadable error).diagnostic) error.place ↔
        (∀ c ∈ before, c.utf8Size = 1) ∧ SameLines before after ∧
        error.span.stop ≤ source.toList.length + 1) := by
  rcases compile_error_cases reported with ⟨refusal, refused, same⟩ | ⟨_, _, _, _, _, _, other⟩
  · cases same
    obtain ⟨ahead, begins⟩ := refused_start refused
    obtain ⟨before, after, split, start, visible⟩ := Script.start_splits source.toList ahead
    rw [← begins] at start
    obtain ⟨⟨part, front, back, whole, span⟩, place⟩ := Script.parse_error_covers refused
    have ordered : error.span.start ≤ error.span.stop := by
      rw [span, Script.bytes_append]
      exact Nat.le_add_right _ _
    have inside : error.span.stop ≤ Text.bytes source.toList := by
      rw [span, whole, ← List.append_assoc, Script.bytes_append _ back]
      exact Nat.le_add_right _ _
    refine ⟨before, after, split, start, ?_⟩
    rw [names_place_iff rfl (title_on_one_line error), place, Script.lineColumn, start, split,
      Script.advance_through, ← split]
    exact reported_place_iff split start ordered inside (visible_no_feed visible)
  · cases other

def unassignedDraft : String := "# a\r\nx = ;"

theorem unassigned_draft_is_found :
    (compile {} unassignedDraft).errors = [.unreadable ⟨.unexpected [.arithmetic], ⟨9, 9⟩, ⟨2, 5⟩⟩] ∧
    NamesPlace (render unassignedDraft
      (ScriptError.unreadable ⟨.unexpected [.arithmetic], ⟨9, 9⟩, ⟨2, 5⟩⟩).diagnostic) ⟨2, 5⟩ := by
  have refused : (compile {} unassignedDraft).errors =
      [.unreadable ⟨.unexpected [.arithmetic], ⟨9, 9⟩, ⟨2, 5⟩⟩] := by
    decide +kernel
  obtain ⟨before, after, split, start, named⟩ := @error_place_named_iff {} unassignedDraft
    ⟨.unexpected [.arithmetic], ⟨9, 9⟩, ⟨2, 5⟩⟩ (refused ▸ List.mem_cons_self)
  have whole : unassignedDraft.toList = "# a\r\nx = ".toList ++ [';'] := by decide +kernel
  have bytes : Text.bytes "# a\r\nx = ".toList = 9 := by decide +kernel
  obtain ⟨rfl, rfl⟩ := front_of_bytes (split.symm.trans whole) (start.symm.trans bytes.symm)
  have lines : SameLines "# a\r\nx = ".toList [';'] := ⟨by decide +kernel, fun none => by cases none⟩
  exact ⟨refused, named.mpr ⟨bytes_length_iff.mp (by decide +kernel), lines, by decide +kernel⟩⟩

/-- The same behind an accent. -/
def accentDraft : String := "# é\nx = ;"

theorem accent_draft_is_missed :
    ∃ error, (compile {} accentDraft).errors = [.unreadable error] ∧ error.place = ⟨2, 5⟩ ∧
      NamesPlace (render accentDraft (ScriptError.unreadable error).diagnostic) ⟨2, 6⟩ ∧
      ¬NamesPlace (render accentDraft (ScriptError.unreadable error).diagnostic) error.place := by
  have refused : (compile {} accentDraft).errors =
      [.unreadable ⟨.unexpected [.arithmetic], ⟨9, 9⟩, ⟨2, 5⟩⟩] := by
    decide +kernel
  refine ⟨_, refused, rfl, ?_, ?_⟩
  · rw [names_place_iff rfl (title_on_one_line _)]
    decide +kernel
  · rw [names_place_iff rfl (title_on_one_line _)]
    decide +kernel

end PolicyLevers.Report
