import Mathlib.Data.List.DropRight
import PolicyLevers.Csv.BaselineTable

/-!
# Lines of faulty cells

A fault in a cell names a line, which is counted by the line feeds up to the end of the record before it.  One
character ends that record.  Whatever line ends follow it, the feed behind a carriage return or those of empty
lines, are in front of the faulty record but not counted.  So the fault names the line on which its record begins
exactly if none of them is a feed.
-/

namespace PolicyLevers.Csv

set_option autoImplicit false

open Progress (isLineEnd)

/-- The line, counted from one, of the character behind the front of a text. -/
def lineBehind (front : List Char) : Nat := front.count '\n' + 1

def lastLineEnds (front : List Char) : List Char := front.rtakeWhile isLineEnd

/-- Behind its front a text begins the record with a number: up to there it has that many records, and with the
next character one more. -/
def BeginsBehind (text front : List Char) (number : Nat) : Prop :=
  ∃ c rest, text = front ++ c :: rest ∧ (records front).length = number ∧
    (records (front ++ [c])).length = number + 1

def reached (text : List Char) : Progress := (dropMark text).foldl Progress.take .start

/-- A mark in front of the text is the only character that is not taken. -/
theorem reached_append (front : List Char) (c : Char) :
    reached (front ++ [c]) = (reached front).take c ∨ front = [] ∧ c = '\ufeff' := by
  cases front with
  | nil =>
      by_cases mark : c = '\ufeff'
      · exact .inr ⟨rfl, mark⟩
      · refine .inl ?_
        have kept : dropMark [c] = [c] := by
          unfold dropMark
          split
          · simp_all
          · rfl
        rw [List.nil_append, reached, kept]
        rfl
  | cons first others =>
      refine .inl ?_
      have kept : dropMark (first :: others ++ [c]) = dropMark (first :: others) ++ [c] := by
        rw [List.cons_append]
        unfold dropMark
        split <;> split <;> simp_all
      rw [reached, kept, List.foldl_append]
      rfl

/-! ## One character -/

section Taking

variable {progress : Progress} {c : Char}

theorem take_counts (progress : Progress) (c : Char) :
    (progress.take c).lineFeeds = progress.lineFeeds + [c].count '\n' := by
  by_cases feed : c = '\n' <;> by_cases quote : c = '"' <;> by_cases comma : c = ',' <;>
    cases mode : progress.mode <;> cases ends : isLineEnd c <;>
    simp_all [Progress.take, Progress.takeFirst, Progress.takeBare, Progress.add, Progress.endField,
      Progress.endRecord]

theorem take_visible (progress : Progress) (visible : isLineEnd c = false) :
    (progress.take c).mode ≠ .between ∧ (progress.take c).records = progress.records ∧
      (progress.take c).lineFeedsBefore = progress.lineFeedsBefore := by
  have noFeed : c ≠ '\n' := by
    rintro rfl
    cases visible
  cases mode : progress.mode <;> by_cases quote : c = '"' <;> by_cases comma : c = ',' <;>
    simp_all [Progress.take, Progress.takeFirst, Progress.takeBare, Progress.add, Progress.endField]

theorem take_line_end_kept (ends : isLineEnd c = true)
    (kept : progress.mode = .between ∨ progress.mode = .quoted) :
    (progress.take c).mode = progress.mode ∧ (progress.take c).records = progress.records ∧
      (progress.take c).lineFeedsBefore = progress.lineFeedsBefore := by
  have noQuote : c ≠ '"' := by
    rintro rfl
    cases ends
  by_cases feed : c = '\n' <;> rcases kept with mode | mode <;>
    simp_all [Progress.take, Progress.add]

/-- The record that ends keeps the count from before it, and the next one starts with all feeds so far. -/
theorem take_line_end_closes (ends : isLineEnd c = true) (inside : progress.mode ≠ .between)
    (unquoted : progress.mode ≠ .quoted) :
    (progress.take c).mode = .between ∧
      (∃ fields, (progress.take c).records = ⟨progress.lineFeedsBefore, fields⟩ :: progress.records) ∧
      (progress.take c).lineFeedsBefore = (progress.take c).lineFeeds := by
  have noQuote : c ≠ '"' := by
    rintro rfl
    cases ends
  have noComma : c ≠ ',' := by
    rintro rfl
    cases ends
  by_cases feed : c = '\n' <;> cases mode : progress.mode <;>
    simp_all [Progress.take, Progress.takeFirst, Progress.takeBare, Progress.endField, Progress.endRecord]

end Taking

/-! ## Records told by their counts -/

theorem finish_feeds (progress : Progress) :
    progress.finish.map Record.lineFeeds = (progress.records.map Record.lineFeeds).reverse ++
      if progress.mode = .between then [] else [progress.lineFeedsBefore] := by
  cases mode : progress.mode <;>
    simp [Progress.finish, mode, Progress.endRecord, Progress.endField]

/-- A character adds a record if it is the first one of it; a line end between records is not. -/
theorem take_feeds (progress : Progress) (c : Char) :
    (progress.take c).finish.map Record.lineFeeds = progress.finish.map Record.lineFeeds ++
      if progress.mode = .between ∧ isLineEnd c = false then [progress.lineFeedsBefore] else [] := by
  rw [finish_feeds, finish_feeds]
  cases ends : isLineEnd c with
  | false =>
      obtain ⟨inside, records, before⟩ := take_visible progress ends
      by_cases between : progress.mode = .between <;> simp [inside, records, before, between]
  | true =>
      by_cases kept : progress.mode = .between ∨ progress.mode = .quoted
      · obtain ⟨mode, records, before⟩ := take_line_end_kept ends kept
        simp [mode, records, before]
      · obtain ⟨outside, unquoted⟩ := not_or.mp kept
        obtain ⟨mode, ⟨fields, records⟩, _⟩ := take_line_end_closes ends outside unquoted
        simp [mode, records, outside]

theorem records_append (front : List Char) (c : Char) :
    (records (front ++ [c])).map Record.lineFeeds = (records front).map Record.lineFeeds ∨
      (reached front).mode = .between ∧ (records (front ++ [c])).map Record.lineFeeds =
        (records front).map Record.lineFeeds ++ [(reached front).lineFeedsBefore] := by
  rcases reached_append front c with taken | ⟨rfl, rfl⟩
  · have feeds := take_feeds (reached front) c
    rw [← taken] at feeds
    split at feeds
    · rename_i begins
      exact .inr ⟨begins.1, feeds⟩
    · rw [List.append_nil] at feeds
      exact .inl feeds
  · exact .inl rfl

theorem records_monotone (front more : List Char) :
    (records front).length ≤ (records (front ++ more)).length := by
  induction more using List.reverseRecOn with
  | nil => rw [List.append_nil]
  | append_singleton more c induction =>
      rw [← List.append_assoc]
      rcases records_append (front ++ more) c with same | ⟨_, further⟩
      · have length := congrArg List.length same
        simp only [List.length_map] at length
        omega
      · have length := congrArg List.length further
        simp only [List.length_map, List.length_append, List.length_singleton] at length
        omega

theorem BeginsBehind.append {text front : List Char} {number : Nat}
    (begins : BeginsBehind text front number) (more : List Char) :
    BeginsBehind (text ++ more) front number := by
  obtain ⟨c, rest, rfl, before, after⟩ := begins
  exact ⟨c, rest ++ more, by simp, before, after⟩

theorem BeginsBehind.unique {text front other : List Char} {number : Nat}
    (begins : BeginsBehind text front number) (also : BeginsBehind text other number) : front = other := by
  -- a front that reaches further has the record already
  have notFurther {front other : List Char} (begins : BeginsBehind text front number)
      (also : BeginsBehind text other number) : other.length ≤ front.length := by
    by_contra further
    obtain ⟨c, rest, split, before, after⟩ := begins
    obtain ⟨d, others, again, same, _⟩ := also
    obtain ⟨more, reaches⟩ : front ++ [c] <+: other := by
      refine List.prefix_of_prefix_length_le ⟨rest, ?_⟩ ⟨d :: others, again.symm⟩ ?_
      · rw [split, List.append_assoc, List.singleton_append]
      · rw [List.length_append, List.length_singleton]
        omega
    have grown := records_monotone (front ++ [c]) more
    rw [reaches] at grown
    omega
  have length := Nat.le_antisymm (notFurther also begins) (notFurther begins also)
  obtain ⟨c, rest, split, _⟩ := begins
  obtain ⟨d, others, again, _⟩ := also
  exact (List.append_inj (split.symm.trans again) length).1

/-- Every record begins somewhere, and its count is the one that the reader has there. -/
theorem feeds_begin {text : List Char} {number feeds : Nat}
    (counted : ((records text).map Record.lineFeeds)[number]? = some feeds) :
    ∃ front, BeginsBehind text front number ∧ (reached front).lineFeedsBefore = feeds := by
  induction text using List.reverseRecOn with
  | nil => cases counted
  | append_singleton front c induction =>
      rcases records_append front c with same | ⟨between, further⟩
      · rw [same] at counted
        obtain ⟨start, begins, before⟩ := induction counted
        exact ⟨start, begins.append [c], before⟩
      · rw [further, List.getElem?_append, List.length_map] at counted
        split at counted
        · obtain ⟨start, begins, before⟩ := induction counted
          exact ⟨start, begins.append [c], before⟩
        · obtain ⟨inside, last⟩ := List.getElem?_eq_some_iff.mp counted
          have length := congrArg List.length further
          simp only [List.length_map, List.length_append, List.length_singleton] at inside length
          refine ⟨front, ⟨c, [], rfl, by omega, by omega⟩, ?_⟩
          simpa using last

theorem BeginsBehind.between {text front : List Char} {number : Nat}
    (begins : BeginsBehind text front number) : (reached front).mode = .between := by
  obtain ⟨c, rest, _, before, after⟩ := begins
  rcases records_append front c with same | ⟨between, _⟩
  · have length := congrArg List.length same
    simp only [List.length_map] at length
    omega
  · exact between

/-! ## Feeds that are not counted -/

/-- What a reader has counted at the end of a text.  Between records that is all feeds but those behind the
character that ended the last record. -/
structure Counted (text : List Char) (progress : Progress) : Prop where
  all : progress.lineFeeds = text.count '\n'
  between : progress.mode = .between → progress.records ≠ [] → lastLineEnds text ≠ [] ∧
    progress.lineFeedsBefore + (lastLineEnds text).tail.count '\n' = text.count '\n'
  inside : progress.mode ≠ .between → progress.mode ≠ .quoted → lastLineEnds text = []

theorem Counted.take {text : List Char} {progress : Progress} (counted : Counted text progress) (c : Char) :
    Counted (text ++ [c]) (progress.take c) := by
  have all : (progress.take c).lineFeeds = (text ++ [c]).count '\n' := by
    rw [take_counts, counted.all, List.count_append]
  cases ends : isLineEnd c with
  | false =>
      obtain ⟨inside, _⟩ := take_visible progress ends
      refine ⟨all, fun between => absurd between inside, fun _ _ => ?_⟩
      exact List.rtakeWhile_concat_neg _ _ _ (by simp [ends])
  | true =>
      have closing : lastLineEnds (text ++ [c]) = lastLineEnds text ++ [c] :=
        List.rtakeWhile_concat_pos _ _ _ ends
      by_cases kept : progress.mode = .between ∨ progress.mode = .quoted
      · obtain ⟨mode, records, before⟩ := take_line_end_kept ends kept
        refine ⟨all, fun between some => ?_, fun inside unquoted => ?_⟩
        · rw [records] at some
          obtain ⟨visible, feeds⟩ := counted.between (mode.symm.trans between) some
          rw [closing, List.tail_append_of_ne_nil visible, List.count_append, before, List.count_append]
          exact ⟨by simp, by omega⟩
        · rw [mode] at inside unquoted
          rcases kept with between | quoted
          · exact absurd between inside
          · exact absurd quoted unquoted
      · obtain ⟨outside, unquoted⟩ := not_or.mp kept
        obtain ⟨mode, _, before⟩ := take_line_end_closes ends outside unquoted
        refine ⟨all, fun _ _ => ?_, fun inside => absurd mode inside⟩
        rw [closing, counted.inside outside unquoted, before, all]
        exact ⟨by simp, rfl⟩

theorem reached_counted (text : List Char) : Counted text (reached text) := by
  induction text using List.reverseRecOn with
  | nil => exact ⟨rfl, fun _ some => absurd rfl some, fun inside => absurd rfl inside⟩
  | append_singleton front c induction =>
      rcases reached_append front c with taken | ⟨rfl, rfl⟩
      · rw [taken]
        exact induction.take c
      · exact ⟨rfl, fun _ some => absurd rfl some, fun inside => absurd rfl inside⟩

/-- The line that the count of a record gives is the one it begins on, less the feeds that are not counted. -/
theorem line_counted {text front : List Char} {number feeds : Nat} (later : 0 < number)
    (counted : ((records text).map Record.lineFeeds)[number]? = some feeds)
    (begins : BeginsBehind text front number) :
    feeds + 1 + (lastLineEnds front).tail.count '\n' = lineBehind front := by
  obtain ⟨start, also, rfl⟩ := feeds_begin counted
  obtain rfl := also.unique begins
  have mode := begins.between
  obtain ⟨_, _, _, before, _⟩ := begins
  have some : (reached start).records ≠ [] := by
    intro none
    have length := congrArg List.length (finish_feeds (reached start))
    rw [mode, none, List.length_map] at length
    change (records start).length = 0 at length
    omega
  have between := ((reached_counted start).between mode some).2
  unfold lineBehind
  omega

end PolicyLevers.Csv

namespace PolicyLevers.BaselineTable

/-- The record with a number is the first behind the columns that is not read, and this is its fault. -/
def FirstFault (text : String) (number : Nat) (fault : BaselineFault) : Prop :=
  ∃ columns before record after,
    Csv.records text.toList = columns :: (before ++ record :: after) ∧ before.length + 1 = number ∧
    (∀ earlier ∈ before, ∃ read, readRecord (trimmed columns) earlier = .ok read) ∧
    readRecord (trimmed columns) record = .error fault

theorem attribute_fault_line {line other : Nat} {cells : List (String × String)} {attributes : Attributes}
    {column value : String}
    (failed : readAttributes line attributes cells = .error (.badValue other column value)) :
    other = line := by
  induction cells generalizing attributes with
  | nil => cases failed
  | cons cell rest induction =>
      unfold readAttributes at failed
      split at failed
      · exact induction failed
      · split at failed
        · cases failed
          rfl
        · exact induction failed

theorem record_fault_line {columns : List String} {record : Csv.Record} {line : Nat} {column value : String}
    (failed : readRecord columns record = .error (.badValue line column value)) :
    line = record.lineFeeds + 1 := by
  unfold readRecord at failed
  dsimp only at failed
  split at failed
  · cases failed
  · split at failed
    · cases failed
      rfl
    · rename_i year _
      cases found : readAttributes (record.lineFeeds + 1) ∅ ((columns.zip (trimmed record)).drop 2) with
      | ok attributes =>
          rw [found] at failed
          cases failed
      | error fault =>
          rw [found] at failed
          cases failed
          exact attribute_fault_line found

theorem read_records_fault {columns : List String} {baseline : Baseline} {records : List Csv.Record}
    {fault : BaselineFault} (failed : readRecords columns baseline records = .error fault) :
    ∃ before record after, records = before ++ record :: after ∧
      (∀ earlier ∈ before, ∃ read, readRecord columns earlier = .ok read) ∧
      readRecord columns record = .error fault := by
  induction records generalizing baseline with
  | nil => cases failed
  | cons first rest induction =>
      unfold readRecords at failed
      cases found : readRecord columns first with
      | ok read =>
          rw [found] at failed
          obtain ⟨before, record, after, rfl, good, bad⟩ := induction failed
          exact ⟨first :: before, record, after, rfl, List.forall_mem_cons.mpr ⟨⟨read, found⟩, good⟩, bad⟩
      | error other =>
          rw [found] at failed
          cases failed
          exact ⟨[], first, rest, rfl, by simp, found⟩

theorem read_fault {text : String} {line : Nat} {column value : String}
    (failed : read text = .error (.badValue line column value)) :
    ∃ number, FirstFault text number (.badValue line column value) := by
  unfold read at failed
  dsimp only at failed
  split at failed
  · cases failed
  · split at failed
    · cases failed
    · obtain ⟨before, record, after, split, good, bad⟩ := read_records_fault failed
      cases found : Csv.records text.toList with
      | nil => simp [found] at split
      | cons columns rest =>
          simp only [found, List.head?_cons, Option.map_some, Option.getD_some, List.tail_cons]
            at split good bad
          exact ⟨before.length + 1, columns, before, record, after, by rw [found, split], rfl, good, bad⟩

theorem FirstFault.counted {text : String} {number line : Nat} {column value : String}
    (first : FirstFault text number (.badValue line column value)) :
    ∃ feeds, ((Csv.records text.toList).map Csv.Record.lineFeeds)[number]? = some feeds ∧ 0 < number ∧
      line = feeds + 1 := by
  obtain ⟨columns, before, record, after, split, rfl, _, bad⟩ := first
  refine ⟨record.lineFeeds, ?_, Nat.succ_pos _, record_fault_line bad⟩
  rw [split, List.getElem?_map, List.getElem?_cons_succ, List.getElem?_append_right (Nat.le_refl _)]
  simp

/-- A table that ends with a fault in a cell has a first record that is not read, and it begins somewhere.  The
line that the fault names comes short of the line of the record by the feeds among the line ends in front of it,
the first of which ended the record before.  So it is that line exactly if none of the others is a feed. -/
theorem fault_line_named_iff {text : String} {line : Nat} {column value : String}
    (failed : read text = .error (.badValue line column value)) :
    (∃ number front, FirstFault text number (.badValue line column value) ∧
      Csv.BeginsBehind text.toList front number) ∧
    ∀ number front, FirstFault text number (.badValue line column value) →
      Csv.BeginsBehind text.toList front number →
      line + (Csv.lastLineEnds front).tail.count '\n' = Csv.lineBehind front ∧
      (line = Csv.lineBehind front ↔ '\n' ∉ (Csv.lastLineEnds front).tail) := by
  constructor
  · obtain ⟨number, first⟩ := read_fault failed
    obtain ⟨feeds, counted, _⟩ := first.counted
    obtain ⟨front, begins, _⟩ := Csv.feeds_begin counted
    exact ⟨number, front, first, begins⟩
  · intro number front first begins
    obtain ⟨feeds, counted, later, rfl⟩ := first.counted
    have line := Csv.line_counted later counted begins
    refine ⟨line, ?_⟩
    rw [← List.count_eq_zero]
    omega

/-- The region of the second record has a line feed in its name. -/
def brokenTable : String := "year,region,a\n2020,\"nor\nth\",1\n2021,east,lots\n"

theorem broken_table_line_is_named :
    read brokenTable = .error (.badValue 4 "a" "lots") ∧ FirstFault brokenTable 2 (.badValue 4 "a" "lots") ∧
    Csv.BeginsBehind brokenTable.toList "year,region,a\n2020,\"nor\nth\",1\n".toList 2 ∧
    4 = Csv.lineBehind "year,region,a\n2020,\"nor\nth\",1\n".toList := by
  have failed : read brokenTable = .error (.badValue 4 "a" "lots") := by decide +kernel
  have first : FirstFault brokenTable 2 (.badValue 4 "a" "lots") := by
    refine ⟨_, [_], _, [], rfl, rfl, ?_, by decide +kernel⟩
    exact List.forall_mem_singleton.mpr ⟨_, rfl⟩
  have begins : Csv.BeginsBehind brokenTable.toList "year,region,a\n2020,\"nor\nth\",1\n".toList 2 :=
    ⟨'2', "021,east,lots\n".toList, by decide +kernel, by decide +kernel, by decide +kernel⟩
  refine ⟨failed, first, begins, ?_⟩
  exact (((fault_line_named_iff failed).2 2 _ first begins).2).mpr (by decide +kernel)

def returnedTable : String := "year,region,a\r\n2019,china,lots\r\n"

theorem returned_table_line_is_missed :
    read returnedTable = .error (.badValue 1 "a" "lots") ∧
    FirstFault returnedTable 1 (.badValue 1 "a" "lots") ∧
    Csv.BeginsBehind returnedTable.toList "year,region,a\r\n".toList 1 ∧
    Csv.lineBehind "year,region,a\r\n".toList = 2 := by
  refine ⟨by decide +kernel, ⟨_, [], _, [], rfl, rfl, by simp, by decide +kernel⟩, ?_, by decide +kernel⟩
  exact ⟨'2', "019,china,lots\r\n".toList, by decide +kernel, by decide +kernel, by decide +kernel⟩

end PolicyLevers.BaselineTable
