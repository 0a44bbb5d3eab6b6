import PolicyLevers.Json.Reader
import PolicyLevers.Json.Writer
import PolicyLevers.Proofs.RenderedNumbers

/-!
# Compact documents are read back

A document on one line is read as the document it was written from, if its texts have values and its
numbers are written as numerals.  What follows a value decides where its number ends, so every reading
lemma says what may follow.
-/

namespace PolicyLevers.Json

set_option autoImplicit false

open Decimal (Numeral signed NoDigit no_digit_cons no_digit_nil split_digits)
open Decimal.Numeral (fractionText powerText)
open Float.Model.UnpackedFloat (Sign)

/-! ## Numbers -/

/-- Digits that stand for a number: a numeral, perhaps with a sign in front. -/
def IsNumber (digits : List Char) : Prop :=
  ∃ (sign : Sign) (numeral : Numeral), numeral.WellFormed ∧ digits = signed sign numeral.text

/-- What may follow a number: nothing that could be a part of it. -/
def Ends (rest : List Char) : Prop :=
  ∀ c ∈ rest.head?, c.isDigit = false ∧ c ≠ '.' ∧ c ≠ 'e' ∧ c ≠ 'E'

theorem ends_nil : Ends [] := by
  rintro _ ⟨⟩

theorem ends_cons {c : Char} (other : c.isDigit = false ∧ c ≠ '.' ∧ c ≠ 'e' ∧ c ≠ 'E')
    (rest : List Char) : Ends (c :: rest) := by
  rintro _ ⟨⟩
  exact other

variable {rest : List Char}

theorem read_digits {digits : List Char} (all : digits.all Char.isDigit = true) (visible : digits ≠ [])
    (stops : NoDigit rest) : readDigits (digits ++ rest) = some (digits, rest) := by
  obtain ⟨taken, dropped⟩ := split_digits all stops
  unfold readDigits
  rw [taken, dropped, if_neg (by simpa using visible)]

theorem read_whole {numeral : Numeral} (formed : numeral.WellFormed) (stops : NoDigit rest) :
    readWhole (numeral.whole ++ rest) = some (numeral.whole, rest) := by
  have digits := formed.whole
  rcases formed.leading with zero | ⟨first, others, whole, nonzero⟩
  · have next : rest.head?.any Char.isDigit = false := by
      cases rest with
      | nil => rfl
      | cons c rest => exact stops c rfl
    rw [zero, List.cons_append, List.nil_append, readWhole, if_neg (by rw [next]; decide)]
  · rw [whole] at digits ⊢
    have read := read_digits digits (List.cons_ne_nil first others) stops
    unfold readWhole
    split
    · rename_i same
      exact absurd (List.cons.inj same).1 nonzero
    · exact read

theorem read_exponent (power : Option Int) (stops : Ends rest) :
    readExponent (powerText power ++ rest) = some (powerText power, rest) := by
  have digit : NoDigit rest := fun c head => (stops c head).1
  cases power with
  | none =>
      unfold readExponent powerText
      rw [List.nil_append]
      cases rest with
      | nil => rfl
      | cons c rest =>
          obtain ⟨-, -, lower, upper⟩ := stops c rfl
          simp [lower, upper]
  | some power =>
      have read := read_digits (Decimal.digits_all power.natAbs) Nat.toDigits_ne_nil digit
      rw [powerText]
      by_cases below : power < 0
      · rw [if_pos below]
        simp only [readExponent, List.cons_append, read]
        rfl
      · rw [if_neg below]
        simp only [readExponent, List.cons_append, read]
        rfl

theorem read_fraction {digits : List Char} (all : digits.all Char.isDigit = true)
    (stops : NoDigit rest) (point : rest.head? ≠ some '.') :
    readFraction (fractionText digits ++ rest) = some (fractionText digits, rest) := by
  cases digits with
  | nil =>
      unfold readFraction fractionText
      rw [List.nil_append]
      split
      · exact absurd rfl point
      · rfl
  | cons first others =>
      have read := read_digits all (List.cons_ne_nil first others) stops
      change (readDigits (first :: others ++ rest)).map _ = _
      rw [read]
      rfl

theorem read_unsigned {numeral : Numeral} (formed : numeral.WellFormed) (stops : Ends rest) :
    readUnsigned (numeral.text ++ rest) = some (numeral.text, rest) := by
  have digit : NoDigit rest := fun c head => (stops c head).1
  have point : rest.head? ≠ some '.' := fun head => (stops '.' head).2.1 rfl
  have power : NoDigit (powerText numeral.power ++ rest) ∧
      (powerText numeral.power ++ rest).head? ≠ some '.' := by
    cases numeral.power with
    | none => exact ⟨digit, point⟩
    | some power => exact ⟨no_digit_cons rfl _, by simp [powerText]⟩
  have fraction : NoDigit (fractionText numeral.fraction ++ (powerText numeral.power ++ rest)) := by
    cases numeral.fraction with
    | nil => exact power.1
    | cons first others => exact no_digit_cons rfl _
  unfold readUnsigned Numeral.text
  rw [List.append_assoc, List.append_assoc, read_whole formed fraction, Option.bind_eq_bind,
    Option.bind_some]
  dsimp only
  rw [read_fraction formed.fraction power.1 power.2, Option.bind_some]
  dsimp only
  rw [read_exponent numeral.power stops]
  simp

theorem IsNumber.read {digits : List Char} (number : IsNumber digits) (stops : Ends rest) :
    readNumber (digits ++ rest) = some (digits, rest) := by
  obtain ⟨sign, numeral, formed, rfl⟩ := number
  have read := read_unsigned formed stops
  cases sign with
  | negative =>
      rw [signed, List.cons_append, readNumber, read]
      rfl
  | positive =>
      obtain ⟨first, others, same, digit⟩ := formed.starts_with_digit
      rw [signed]
      rw [same] at read ⊢
      unfold readNumber
      split
      · rename_i minus
        obtain ⟨rfl, -⟩ := List.cons.inj minus
        cases digit
      · exact read

/-! ## Texts -/

theorem read_letter {letter c : Char} (simple : simpleEscape? letter = some c) (rest : List Char) :
    readMarks ('\\' :: letter :: rest) =
      (readMarks rest).map (fun (marks, rest) => (.char c :: marks, rest)) := by
  rw [readMarks.eq_def]
  split
  · rename_i same
    cases same
  · rename_i same
    cases same
    cases simple
  · rename_i same
    cases same
    rw [simple]
    cases readMarks rest <;> rfl
  · rename_i other same
    cases same
    exact (other letter rest rfl rfl).elim
  · rename_i same
    cases same

theorem read_plain {c : Char} (visible : ¬c.toNat < 0x20) (quote : c ≠ '"') (backslash : c ≠ '\\')
    (rest : List Char) :
    readMarks (c :: rest) =
      (readMarks rest).map (fun (marks, rest) => (.char c :: marks, rest)) := by
  rw [readMarks.eq_def]
  split
  · rename_i same
    exact absurd (List.cons.inj same).1 quote
  · rename_i same
    exact absurd (List.cons.inj same).1 backslash
  · rename_i same
    exact absurd (List.cons.inj same).1 backslash
  · rename_i same
    cases same
    rw [if_neg (by simp [visible, backslash])]
  · rename_i same
    cases same

theorem hex_digit : ∀ value < 16, hexDigit? (Nat.digitChar value) = some value := by
  decide

theorem read_unit {code : Nat} (control : code < 0x20) (rest : List Char) :
    readMarks ('\\' :: 'u' :: '0' :: '0' :: Nat.digitChar (code / 16) :: Nat.digitChar (code % 16) ::
        rest) =
      (readMarks rest).map (fun (marks, rest) => (.unit code :: marks, rest)) := by
  have value : codeUnit? '0' '0' (Nat.digitChar (code / 16)) (Nat.digitChar (code % 16)) = some code := by
    have zero : hexDigit? '0' = some 0 := hex_digit 0 (by decide)
    unfold codeUnit?
    rw [zero, hex_digit (code / 16) (by omega), hex_digit (code % 16) (by omega)]
    exact congrArg some (by omega)
  rw [readMarks, value]
  cases readMarks rest <;> rfl

/-- A control character without a letter of its own is written by its code. -/
def HasCode (c : Char) : Prop := c.toNat < 0x20 ∧ c ∉ ['\x08', '\x0c', '\n', '\r', '\t']

instance (c : Char) : Decidable (HasCode c) := inferInstanceAs (Decidable (_ ∧ _))

def markOf (c : Char) : Mark := if HasCode c then .unit c.toNat else .char c

theorem read_escape (c : Char) (rest : List Char) :
    readMarks (escape c ++ rest) =
      (readMarks rest).map (fun (marks, rest) => (markOf c :: marks, rest)) := by
  unfold escape
  split
  case h_8 quote backslash back feed line carriage tab =>
    by_cases control : c.toNat < 0x20
    · have mark : markOf c = .unit c.toNat :=
        if_pos ⟨control, by simpa using ⟨back, feed, line, carriage, tab⟩⟩
      rw [if_pos control, mark]
      exact read_unit control rest
    · have mark : markOf c = .char c := if_neg (fun code => control code.1)
      rw [if_neg control, mark]
      exact read_plain control quote backslash rest
  all_goals exact read_letter rfl rest

theorem read_content (content rest : List Char) :
    readMarks (content.flatMap escape ++ '"' :: rest) = some (content.map markOf, rest) := by
  induction content with
  | nil => rfl
  | cons c content ih =>
      rw [List.flatMap_cons, List.append_assoc, read_escape, ih]
      rfl

/-- A code below those of surrogates stands for its character, whatever follows. -/
theorem join_low_unit {code : Nat} (low : code < 0xD800) (marks : List Mark) :
    joinMarks (.unit code :: marks) = (joinMarks marks).map (Char.ofNat code :: ·) := by
  have high : isHighSurrogate code = false := by simp [isHighSurrogate]; omega
  have second : isLowSurrogate code = false := by simp [isLowSurrogate]; omega
  rw [joinMarks.eq_def]
  split
  · rename_i same
    cases same
  · rename_i same
    cases same
  · rename_i same
    cases same
    simp [high, second]
  · rename_i same
    cases same
    simp [high, second]

theorem join_marks (content : List Char) : joinMarks (content.map markOf) = some content := by
  induction content with
  | nil => rfl
  | cons c content ih =>
      rw [List.map_cons, markOf]
      split
      · rename_i code
        rw [join_low_unit (by have control := code.1; omega), ih, Option.map_some, Char.ofNat_toNat]
      · rw [joinMarks, ih]
        rfl

theorem read_text (content : String) (rest : List Char) :
    readText (content.toList.flatMap escape ++ '"' :: rest) = some (some content, rest) := by
  unfold readText
  rw [read_content, Option.map_some]
  dsimp only
  rw [join_marks, Option.map_some, String.ofList_toList]

/-! ## Values -/

/-- All numbers of a document are numerals, and all its texts have a value. -/
inductive Sound : Json → Prop where
  | null : Sound .null
  | bool (value : Bool) : Sound (.bool value)
  | number {digits : List Char} (number : IsNumber digits) : Sound (.number digits)
  | text (content : String) : Sound (.text (some content))
  | array {items : List Json} (each : ∀ item ∈ items, Sound item) : Sound (.array items)
  | object {members : List (JsonText × Json)} (keys : ∀ member ∈ members, member.1.isSome = true)
      (each : ∀ member ∈ members, Sound member.2) : Sound (.object members)

theorem skip_visible {c : Char} (visible : isBlank c = false) (rest : List Char) :
    skipBlanks (c :: rest) = c :: rest := by
  unfold skipBlanks
  rw [List.dropWhile_cons, if_neg (by rw [visible]; decide)]

def StartsNumber (c : Char) : Prop := c = '-' ∨ c.isDigit = true

theorem starts_number_visible {c : Char} (start : StartsNumber c) : isBlank c = false := by
  by_contra blank
  have space : c = ' ' ∨ c = '\n' ∨ c = '\t' ∨ c = '\r' := by
    rw [Bool.not_eq_false] at blank
    simpa only [isBlank, Bool.or_eq_true, decide_eq_true_eq, or_assoc] using blank
  rcases start with minus | digit <;> rcases space with rfl | rfl | rfl | rfl <;> contradiction

theorem IsNumber.start {digits : List Char} (number : IsNumber digits) :
    ∃ first others, digits = first :: others ∧ StartsNumber first := by
  obtain ⟨sign, numeral, formed, rfl⟩ := number
  cases sign with
  | negative => exact ⟨'-', numeral.text, rfl, .inl rfl⟩
  | positive =>
      obtain ⟨first, others, same, digit⟩ := formed.starts_with_digit
      exact ⟨first, others, same, .inr digit⟩

theorem read_value_number {c : Char} (start : StartsNumber c) (limit : Nat) (rest : List Char) :
    readValue (limit + 1) (c :: rest) =
      (readNumber (c :: rest)).map (fun (digits, rest) => (.number digits, rest)) := by
  have visible := starts_number_visible start
  unfold StartsNumber at start
  rw [readValue, skip_visible visible]
  split
  case h_7 => rfl
  all_goals
    rename_i same
    obtain ⟨rfl, -⟩ := List.cons.inj same
    rcases start with bad | bad <;> cases bad

/-- The document is read from its compact text, whatever follows. -/
def ReadsBack (json : Json) : Prop :=
  ∀ (limit : Nat) (rest : List Char), 2 * (compact json).length ≤ limit → Ends rest →
    readValue limit (compact json ++ rest) = some (json, rest)

theorem number_reads_back {digits : List Char} (number : IsNumber digits) :
    ReadsBack (.number digits) := by
  intro limit rest enough stops
  have read := number.read stops
  obtain ⟨first, others, rfl, start⟩ := number.start
  obtain ⟨fuel, rfl⟩ : ∃ fuel, limit = fuel + 1 := ⟨limit - 1, by simp [compact] at enough; omega⟩
  change readValue (fuel + 1) (first :: (others ++ rest)) = _
  rw [read_value_number start]
  rw [List.cons_append] at read
  rw [read]
  rfl

theorem text_reads_back (content : String) : ReadsBack (.text (some content)) := by
  intro limit rest enough _
  obtain ⟨fuel, rfl⟩ : ∃ fuel, limit = fuel + 1 :=
    ⟨limit - 1, by simp [compact, quoteText, quote] at enough; omega⟩
  have read := read_text content rest
  simp [compact, quoteText, quote, readValue, skip_visible, isBlank, read]

section Parts

variable {limit : Nat} {value : Json} {after : List Char}

theorem read_last_item (read : readValue limit (compact value ++ ']' :: after) = some (value, ']' :: after)) :
    readItems (limit + 1) (compact value ++ ']' :: after) = some ([value], after) := by
  rw [readItems, read]
  rfl

theorem skip_comma (after : List Char) : skipBlanks (',' :: after) = ',' :: after :=
  skip_visible (by decide) after

theorem skip_colon (after : List Char) : skipBlanks (':' :: after) = ':' :: after :=
  skip_visible (by decide) after

theorem skip_brace (after : List Char) : skipBlanks ('\x7d' :: after) = '\x7d' :: after :=
  skip_visible (by decide) after

theorem read_further_item
    (read : readValue limit (compact value ++ ',' :: after) = some (value, ',' :: after)) :
    readItems (limit + 1) (compact value ++ ',' :: after) =
      (readItems limit after).map (fun (items, rest) => (value :: items, rest)) := by
  simp only [readItems, read, skip_comma, Option.bind_eq_bind, Option.bind_some]
  cases readItems limit after <;> rfl

theorem read_key (key : String) (after : List Char) :
    skipBlanks (quoteText (some key) ++ after) = '"' :: (key.toList.flatMap escape ++ '"' :: after) := by
  unfold quoteText quote
  rw [List.cons_append, skip_visible (by decide), List.append_assoc]
  rfl

theorem read_last_member (key : String)
    (read : readValue limit (compact value ++ '\x7d' :: after) = some (value, '\x7d' :: after)) :
    readMembers (limit + 1) (quoteText (some key) ++ ':' :: (compact value ++ '\x7d' :: after)) =
      some ([(some key, value)], after) := by
  simp only [readMembers, read_key, read_text, skip_colon, read, skip_brace, Option.bind_eq_bind,
    Option.bind_some]
  rfl

theorem read_further_member (key : String)
    (read : readValue limit (compact value ++ ',' :: after) = some (value, ',' :: after)) :
    readMembers (limit + 1) (quoteText (some key) ++ ':' :: (compact value ++ ',' :: after)) =
      (readMembers limit after).map (fun (members, rest) => ((some key, value) :: members, rest)) := by
  simp only [readMembers, read_key, read_text, skip_colon, read, skip_comma, Option.bind_eq_bind,
    Option.bind_some]
  cases readMembers limit after <;> rfl

end Parts

theorem items_read_back {item : Json} {items : List Json}
    (each : ∀ entry ∈ item :: items, ReadsBack entry) {limit : Nat}
    (enough : 2 * (compactItems (item :: items)).length + 1 ≤ limit) (rest : List Char) :
    readItems limit (compactItems (item :: items) ++ ']' :: rest) = some (item :: items, rest) := by
  obtain ⟨fuel, rfl⟩ : ∃ fuel, limit = fuel + 1 := ⟨limit - 1, by omega⟩
  induction items generalizing item fuel with
  | nil =>
      rw [compactItems] at enough ⊢
      exact read_last_item (each item (by simp) fuel _ (by omega) (ends_cons (by decide) rest))
  | cons next items ih =>
      rw [compactItems, List.length_append, List.length_cons] at enough
      obtain ⟨less, rfl⟩ : ∃ less, fuel = less + 1 := ⟨fuel - 1, by omega⟩
      have read := each item (by simp) (less + 1) (',' :: (compactItems (next :: items) ++ ']' :: rest))
        (by omega) (ends_cons (by decide) _)
      have others : ∀ entry ∈ next :: items, ReadsBack entry :=
        fun entry member => each entry (List.mem_cons_of_mem item member)
      rw [compactItems, List.append_assoc, List.cons_append, read_further_item read,
        ih others less (by omega)]
      rfl

theorem members_read_back {key : String} {value : Json} {members : List (JsonText × Json)}
    (keys : ∀ member ∈ members, member.1.isSome = true) (first : ReadsBack value)
    (each : ∀ member ∈ members, ReadsBack member.2) {limit : Nat}
    (enough : 2 * (compactMembers ((some key, value) :: members)).length + 1 ≤ limit)
    (rest : List Char) :
    readMembers limit (compactMembers ((some key, value) :: members) ++ '\x7d' :: rest) =
      some ((some key, value) :: members, rest) := by
  obtain ⟨fuel, rfl⟩ : ∃ fuel, limit = fuel + 1 := ⟨limit - 1, by omega⟩
  induction members generalizing key value fuel with
  | nil =>
      rw [compactMembers, List.length_append, List.length_cons] at enough
      rw [compactMembers, List.append_assoc, List.cons_append]
      exact read_last_member key (first fuel _ (by omega) (ends_cons (by decide) rest))
  | cons member members ih =>
      obtain ⟨name, content⟩ := member
      have named : Option.isSome name = true := keys (name, content) (by simp)
      obtain ⟨next, rfl⟩ := Option.isSome_iff_exists.mp named
      have second : ReadsBack content := each (some next, content) (by simp)
      rw [compactMembers] at enough ⊢
      simp only [List.length_append, List.length_cons] at enough
      obtain ⟨less, rfl⟩ : ∃ less, fuel = less + 1 := ⟨fuel - 1, by omega⟩
      have read := first (less + 1)
        (',' :: (compactMembers ((some next, content) :: members) ++ '\x7d' :: rest)) (by omega)
        (ends_cons (by decide) _)
      have others : readMembers (less + 1) (compactMembers ((some next, content) :: members) ++
          '\x7d' :: rest) = some ((some next, content) :: members, rest) :=
        ih (fun member inside => keys member (by simp [inside])) second
          (fun member inside => each member (by simp [inside])) less (by omega)
      simp only [List.append_assoc, List.cons_append]
      rw [read_further_member key read, others]
      rfl

/-- A sound document starts with no blank and no closing bracket. -/
theorem Sound.start {json : Json} (sound : json.Sound) :
    ∃ first others, compact json = first :: others ∧ isBlank first = false ∧ first ≠ ']' := by
  cases sound with
  | null => exact ⟨'n', _, rfl, by decide, by decide⟩
  | bool value => cases value <;> exact ⟨_, _, rfl, by decide, by decide⟩
  | number number =>
      obtain ⟨first, others, same, start⟩ := number.start
      refine ⟨first, others, same, starts_number_visible start, ?_⟩
      rintro rfl
      rcases start with bad | bad <;> cases bad
  | text content => exact ⟨'"', _, rfl, by decide, by decide⟩
  | array each => exact ⟨'[', _, rfl, by decide, by decide⟩
  | object keys each => exact ⟨'\x7b', _, rfl, by decide, by decide⟩

theorem array_reads_back {items : List Json} (sound : ∀ item ∈ items, Sound item)
    (each : ∀ item ∈ items, ReadsBack item) : ReadsBack (.array items) := by
  intro limit rest enough _
  rw [compact, List.length_cons, List.length_append] at enough
  obtain ⟨fuel, rfl⟩ : ∃ fuel, limit = fuel + 1 := ⟨limit - 1, by omega⟩
  have opened (text : List Char) : skipBlanks ('[' :: text) = '[' :: text := skip_visible (by decide) text
  cases items with
  | nil => rfl
  | cons item items =>
      have read : readItems fuel (compactItems (item :: items) ++ ']' :: rest) =
          some (item :: items, rest) := items_read_back each (by simp at enough; omega) rest
      obtain ⟨first, others, same, visible, bracket⟩ : ∃ first others,
          compactItems (item :: items) ++ ']' :: rest = first :: others ∧ isBlank first = false ∧
            first ≠ ']' := by
        obtain ⟨first, others, same, visible, bracket⟩ := (sound item (by simp)).start
        cases items <;> rw [compactItems, same] <;> exact ⟨first, _, rfl, visible, bracket⟩
      rw [compact, List.cons_append, List.append_assoc, List.cons_append, List.nil_append]
      simp only [readValue, opened]
      rw [same] at read ⊢
      rw [skip_visible visible]
      split
      · rename_i closed
        exact absurd (List.cons.inj closed).1 bracket
      · rw [read]
        rfl

theorem object_reads_back {members : List (JsonText × Json)}
    (keys : ∀ member ∈ members, member.1.isSome = true)
    (each : ∀ member ∈ members, ReadsBack member.2) : ReadsBack (.object members) := by
  intro limit rest enough _
  rw [compact, List.length_cons, List.length_append] at enough
  obtain ⟨fuel, rfl⟩ : ∃ fuel, limit = fuel + 1 := ⟨limit - 1, by omega⟩
  have opened (text : List Char) : skipBlanks ('\x7b' :: text) = '\x7b' :: text :=
    skip_visible (by decide) text
  cases members with
  | nil => rfl
  | cons member members =>
      obtain ⟨name, value⟩ := member
      have named : Option.isSome name = true := keys (name, value) (by simp)
      obtain ⟨key, rfl⟩ := Option.isSome_iff_exists.mp named
      have first : ReadsBack value := each (some key, value) (by simp)
      have read : readMembers fuel (compactMembers ((some key, value) :: members) ++ '\x7d' :: rest) =
          some ((some key, value) :: members, rest) :=
        members_read_back (fun member inside => keys member (by simp [inside])) first
          (fun member inside => each member (by simp [inside])) (by simp at enough; omega) rest
      obtain ⟨others, same⟩ : ∃ others,
          compactMembers ((some key, value) :: members) ++ '\x7d' :: rest = '"' :: others := by
        cases members <;> rw [compactMembers] <;> exact ⟨_, rfl⟩
      rw [compact, List.cons_append, List.append_assoc, List.cons_append, List.nil_append]
      simp only [readValue, opened]
      rw [same] at read ⊢
      rw [skip_visible (by decide)]
      split
      · rename_i closed
        exact absurd (List.cons.inj closed).1 (by decide)
      · rw [read]
        rfl

/-- A sound document is read back from its compact text. -/
theorem Sound.reads_back {json : Json} (sound : json.Sound) : ReadsBack json := by
  induction sound with
  | null =>
      intro limit rest enough _
      obtain ⟨fuel, rfl⟩ : ∃ fuel, limit = fuel + 1 := ⟨limit - 1, by simp [compact] at enough; omega⟩
      rfl
  | bool value =>
      intro limit rest enough _
      obtain ⟨fuel, rfl⟩ : ∃ fuel, limit = fuel + 1 :=
        ⟨limit - 1, by cases value <;> simp [compact] at enough <;> omega⟩
      cases value <;> rfl
  | number number => exact number_reads_back number
  | text content => exact text_reads_back content
  | array sound each => exact array_reads_back sound each
  | object keys _ each => exact object_reads_back keys each

theorem read_compact {json : Json} (sound : json.Sound) : read json.compact = some json := by
  have back := sound.reads_back (2 * json.compact.length + 2) [] (by omega) ends_nil
  rw [List.append_nil] at back
  unfold read
  rw [back]
  rfl

end PolicyLevers.Json
