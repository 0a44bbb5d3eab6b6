import PolicyLevers.Csv.BaselineTable
import PolicyLevers.Proofs.MapLaws
import PolicyLevers.Proofs.QuotedRecords

/-!
# Written baselines are read back

A table of years, regions and attributes is written with every field in quotes.  If its rows hold what
they should, reading gives the baseline of their records; otherwise it ends at the first row that does
not, with the first thing wrong in it: its width, its year, or a cell from the left.
-/

namespace PolicyLevers.BaselineTable

set_option autoImplicit false

def Unpadded (text : String) : Prop :=
  (∀ c ∈ text.toList.head?, Text.isBlank c = false) ∧ ∀ c ∈ text.toList.getLast?, Text.isBlank c = false

instance (text : String) : Decidable (Unpadded text) :=
  decidable_of_iff
    (text.toList.head?.all (!Text.isBlank ·) = true ∧ text.toList.getLast?.all (!Text.isBlank ·) = true)
    (by simp [Unpadded, Option.all_eq_true])

abbrev Row := List String × Csv.LineEnd

/-- The table with some attribute columns and rows, every field in quotes. -/
def written (headers : List String) (headerEnd : Csv.LineEnd) (rows : List Row) : String :=
  String.ofList (Csv.quotedRecords ((("year" :: "region" :: headers, headerEnd) :: rows).map
    (fun row => (row.1.map String.toList, row.2))))

def cells (headers row : List String) : List (String × String) := headers.zip (row.drop 2)

def Numeric (cell : String × String) : Prop :=
  cell.2 = "" ∨ (Decimal.readFloat cell.2.toList).isSome = true

instance (cell : String × String) : Decidable (Numeric cell) := inferInstanceAs (Decidable (_ ∨ _))

/-- As wide as the header, with a year, and with numbers in all attribute cells that are not empty. -/
structure GoodRow (headers row : List String) : Prop where
  width : row.length = headers.length + 2
  year : (Decimal.readInt32 (row.headD "").toList).isSome = true
  numeric : ∀ cell ∈ cells headers row, Numeric cell

instance (headers row : List String) : Decidable (GoodRow headers row) :=
  decidable_of_iff (row.length = headers.length + 2 ∧
      (Decimal.readInt32 (row.headD "").toList).isSome = true ∧
      ∀ cell ∈ cells headers row, Numeric cell)
    ⟨fun good => ⟨good.1, good.2.1, good.2.2⟩, fun good => ⟨good.width, good.year, good.numeric⟩⟩

/-- The numbers in some cells under their headers, empty cells left out. -/
def numbers (cells : List (String × String)) : List (String × Float) :=
  cells.filterMap (fun cell =>
    if cell.2 = "" then none
    else (Decimal.readFloat cell.2.toList).map (fun number => (cell.1, number)))

def recordOf (headers row : List String) : BaselineRecord :=
  ⟨(Decimal.readInt32 (row.headD "").toList).getD 0, row.getD 1 "",
    .ofList (numbers (cells headers row))⟩

/-- What is wrong with a row: of several things the first, cells being looked at from the left. -/
inductive RowFault (headers row : List String) : BaselineFault → Prop where
  | width (wrong : row.length ≠ headers.length + 2) : RowFault headers row .unequalFields
  | year {line : Nat} (width : row.length = headers.length + 2)
      (wrong : Decimal.readInt32 (row.headD "").toList = none) :
      RowFault headers row (.badValue line "year" (row.headD ""))
  | cell {line : Nat} {before after : List (String × String)} {header text : String}
      (width : row.length = headers.length + 2)
      (year : (Decimal.readInt32 (row.headD "").toList).isSome = true)
      (split : cells headers row = before ++ (header, text) :: after)
      (numeric : ∀ cell ∈ before, Numeric cell) (wrong : ¬Numeric (header, text)) :
      RowFault headers row (.badValue line header text)

/-! ## Cells -/

theorem trim_unpadded {text : String} (unpadded : Unpadded text) :
    Text.trim text.toList = text.toList := by
  have kept : ∀ {list : List Char}, (∀ c ∈ list.head?, Text.isBlank c = false) →
      list.dropWhile Text.isBlank = list := by
    intro list visible
    cases list with
    | nil => rfl
    | cons c rest => simp [visible c rfl]
  unfold Text.trim Text.trimStart Text.trimEnd
  rw [kept unpadded.1, kept, List.reverse_reverse]
  intro c last
  rw [List.head?_reverse] at last
  exact unpadded.2 c last

theorem trimmed_unpadded {record : Csv.Record} {row : List String}
    (fields : record.fields = row.map String.toList) (unpadded : ∀ text ∈ row, Unpadded text) :
    trimmed record = row := by
  rw [trimmed, fields, List.map_map]
  calc row.map ((fun field => String.ofList (Text.trim field)) ∘ String.toList)
      = row.map id := List.map_congr_left fun text member => by
        rw [Function.comp_apply, trim_unpadded (unpadded text member), String.ofList_toList, id_eq]
    _ = row := List.map_id row

theorem read_attributes_numeric {line : Nat} {cells : List (String × String)}
    (numeric : ∀ cell ∈ cells, Numeric cell) (attributes : Attributes) :
    readAttributes line attributes cells =
      .ok ((numbers cells).foldl (fun map entry => map.insert entry.1 entry.2) attributes) := by
  induction cells generalizing attributes with
  | nil => rfl
  | cons cell rest induction =>
      obtain ⟨header, text⟩ := cell
      have others := induction (fun cell member => numeric cell (by simp [member]))
      by_cases empty : text = ""
      · simp [readAttributes, numbers, empty, others]
      · have here := numeric (header, text) (by simp)
        obtain ⟨number, read⟩ := Option.isSome_iff_exists.mp (here.resolve_left empty)
        simp [readAttributes, numbers, empty, read, others]

theorem read_attributes_wrong {cells : List (String × String)} (line : Nat)
    (wrong : ¬∀ cell ∈ cells, Numeric cell) (attributes : Attributes) :
    ∃ before header text after, cells = before ++ (header, text) :: after ∧
      (∀ cell ∈ before, Numeric cell) ∧ ¬Numeric (header, text) ∧
      readAttributes line attributes cells = .error (.badValue line header text) := by
  induction cells generalizing attributes with
  | nil => exact absurd (by simp) wrong
  | cons cell rest induction =>
      obtain ⟨header, text⟩ := cell
      by_cases here : Numeric (header, text)
      · have later : ¬∀ cell ∈ rest, Numeric cell := by
          intro numeric
          exact wrong (by simpa [here] using numeric)
        have step : ∃ filled, readAttributes line attributes ((header, text) :: rest) =
            readAttributes line filled rest := by
          by_cases empty : text = ""
          · exact ⟨attributes, by simp [readAttributes, empty]⟩
          · obtain ⟨number, read⟩ := Option.isSome_iff_exists.mp (here.resolve_left empty)
            exact ⟨attributes.insert header number, by simp [readAttributes, empty, read]⟩
        obtain ⟨filled, same⟩ := step
        obtain ⟨before, badHeader, badText, after, split, numeric, bad, failed⟩ :=
          induction later filled
        refine ⟨(header, text) :: before, badHeader, badText, after, ?_, ?_, bad, ?_⟩
        · rw [split, List.cons_append]
        · simpa [here] using numeric
        · rw [same, failed]
      · have visible : text ≠ "" := fun empty => here (.inl empty)
        have unread : Decimal.readFloat text.toList = none :=
          Option.not_isSome_iff_eq_none.mp (fun read => here (.inr read))
        exact ⟨[], header, text, rest, rfl, by simp, here, by simp [readAttributes, visible, unread]⟩

/-! ## Rows -/

section Rows

variable {headers row : List String} {record : Csv.Record}

theorem cells_of_row (headers row : List String) :
    (("year" :: "region" :: headers).zip row).drop 2 = cells headers row := by
  match row with
  | [] => simp [cells]
  | [year] => simp [cells]
  | year :: region :: rest => rfl

theorem read_record_good (fields : trimmed record = row) (good : GoodRow headers row) :
    readRecord ("year" :: "region" :: headers) record = .ok (recordOf headers row) := by
  obtain ⟨year, read⟩ := Option.isSome_iff_exists.mp good.year
  have width : ¬row.length ≠ ("year" :: "region" :: headers).length := by
    simp [good.width]
  unfold readRecord recordOf
  simp only [fields, if_neg width, read, cells_of_row, read_attributes_numeric good.numeric]
  rfl

theorem read_record_bad (fields : trimmed record = row) (bad : ¬GoodRow headers row) :
    ∃ fault, RowFault headers row fault ∧
      readRecord ("year" :: "region" :: headers) record = .error fault := by
  unfold readRecord
  simp only [fields, cells_of_row]
  by_cases width : row.length = headers.length + 2
  · rw [if_neg (by simp [width])]
    cases read : Decimal.readInt32 (row.headD "").toList with
    | none => exact ⟨.badValue (record.lineFeeds + 1) "year" (row.headD ""), .year width read, rfl⟩
    | some year =>
        have wrong : ¬∀ cell ∈ cells headers row, Numeric cell :=
          fun numeric => bad ⟨width, Option.isSome_of_eq_some read, numeric⟩
        obtain ⟨before, header, text, after, split, numeric, here, failed⟩ :=
          read_attributes_wrong (record.lineFeeds + 1) wrong ∅
        refine ⟨.badValue (record.lineFeeds + 1) header text,
          .cell width (Option.isSome_of_eq_some read) split numeric here, ?_⟩
        simp only [failed]
        rfl
  · exact ⟨.unequalFields, .width width, if_pos (by simpa using width)⟩

theorem read_records_good {records : List Csv.Record} {rows : List (List String)}
    (fields : records.map trimmed = rows) (good : ∀ row ∈ rows, GoodRow headers row)
    (baseline : Baseline) :
    readRecords ("year" :: "region" :: headers) baseline records =
      .ok ((rows.map (recordOf headers)).foldl Baseline.insert baseline) := by
  subst fields
  induction records generalizing baseline with
  | nil => rfl
  | cons record rest induction =>
      have here := read_record_good rfl (good (trimmed record) (by simp))
      simp only [readRecords, here]
      exact induction _ (fun row member => good row (List.mem_cons_of_mem _ member))

theorem read_records_bad {records : List Csv.Record} {rows : List (List String)}
    (fields : records.map trimmed = rows) (bad : ¬∀ row ∈ rows, GoodRow headers row)
    (baseline : Baseline) :
    ∃ before row after fault, rows = before ++ row :: after ∧
      (∀ earlier ∈ before, GoodRow headers earlier) ∧ RowFault headers row fault ∧
      readRecords ("year" :: "region" :: headers) baseline records = .error fault := by
  subst fields
  induction records generalizing baseline with
  | nil => exact absurd (by simp) bad
  | cons record rest induction =>
      by_cases here : GoodRow headers (trimmed record)
      · have later : ¬∀ row ∈ rest.map trimmed, GoodRow headers row := by
          intro good
          exact bad (by simpa [here] using good)
        obtain ⟨before, row, after, fault, split, good, wrong, failed⟩ :=
          induction (baseline.insert (recordOf headers (trimmed record))) later
        refine ⟨trimmed record :: before, row, after, fault, ?_, ?_, wrong, ?_⟩
        · rw [List.map_cons, split, List.cons_append]
        · simpa [here] using good
        · simp only [readRecords, read_record_good rfl here]
          exact failed
      · obtain ⟨fault, wrong, failed⟩ := read_record_bad rfl here
        refine ⟨[], trimmed record, rest.map trimmed, fault, rfl, by simp, wrong, ?_⟩
        simp only [readRecords, failed]
        rfl

end Rows

/-! ## Tables -/

theorem trimmed_rows {records : List Csv.Record} {rows : List Row}
    (fields : records.map Csv.Record.fields = rows.map (fun row => row.1.map String.toList))
    (unpadded : ∀ row ∈ rows, ∀ text ∈ row.1, Unpadded text) :
    records.map trimmed = rows.map Prod.fst := by
  induction rows generalizing records with
  | nil => simpa using fields
  | cons row rest induction =>
      obtain ⟨record, others, rfl, here, later⟩ := List.map_eq_cons_iff.mp fields
      rw [List.map_cons, List.map_cons, trimmed_unpadded here (unpadded row (by simp)),
        induction later (fun row member => unpadded row (by simp [member]))]

theorem read_written {headers : List String} (headerEnd : Csv.LineEnd) {rows : List Row}
    (headersUnpadded : ∀ header ∈ headers, Unpadded header)
    (rowsUnpadded : ∀ row ∈ rows, ∀ text ∈ row.1, Unpadded text)
    (visible : ∀ row ∈ rows, row.1 ≠ []) :
    ∃ records : List Csv.Record, records.map trimmed = rows.map Prod.fst ∧
      read (written headers headerEnd rows) =
        readRecords ("year" :: "region" :: headers) .empty records := by
  have fields := Csv.quoted_records_read ((("year" :: "region" :: headers, headerEnd) :: rows).map
    (fun row => (row.1.map String.toList, row.2))) (by
      intro record member
      obtain ⟨row, inside, rfl⟩ := List.mem_map.mp member
      rcases List.mem_cons.mp inside with rfl | later
      · simp
      · simpa using visible row later)
  have unpadded : ∀ row ∈ (("year" :: "region" :: headers, headerEnd) :: rows : List Row),
      ∀ text ∈ row.1, Unpadded text := by
    intro row member text inside
    rcases List.mem_cons.mp member with rfl | later
    · rcases List.mem_cons.mp inside with rfl | further
      · decide
      rcases List.mem_cons.mp further with rfl | header
      · decide
      · exact headersUnpadded text header
    · exact rowsUnpadded row later text inside
  rw [List.map_map] at fields
  have trimmedRows := trimmed_rows fields unpadded
  obtain ⟨head, records, found, headFields, rowFields⟩ := List.map_eq_cons_iff.mp trimmedRows
  refine ⟨records, rowFields, ?_⟩
  unfold read written
  rw [String.toList_ofList]
  simp only [found, List.head?_cons, Option.map_some, Option.getD_some, headFields, List.tail_cons]
  rfl

/-- A written table is read with the records of its rows if all of them are good, and otherwise ends with
the fault of the first that is not.  Under a header that occurs twice the last number counts. -/
theorem written_baselines_are_read (headers : List String) (headerEnd : Csv.LineEnd) (rows : List Row)
    (headersUnpadded : ∀ header ∈ headers, Unpadded header)
    (rowsUnpadded : ∀ row ∈ rows, ∀ text ∈ row.1, Unpadded text)
    (visible : ∀ row ∈ rows, row.1 ≠ []) :
    ((∀ row ∈ rows, GoodRow headers row.1) →
      read (written headers headerEnd rows) =
        .ok (.ofRecords (rows.map (fun row => recordOf headers row.1)))) ∧
    ((¬∀ row ∈ rows, GoodRow headers row.1) →
      ∃ before row after fault, rows.map Prod.fst = before ++ row :: after ∧
        (∀ earlier ∈ before, GoodRow headers earlier) ∧ RowFault headers row fault ∧
        read (written headers headerEnd rows) = .error fault) ∧
    ∀ row ∈ rows, ∀ name, (recordOf headers row.1).attributes.get? name =
      ((numbers (cells headers row.1)).reverse.find? (fun entry => entry.1 = name)).map Prod.snd := by
  obtain ⟨records, fields, same⟩ := read_written headerEnd headersUnpadded rowsUnpadded visible
  have everywhere : (∀ row ∈ rows.map Prod.fst, GoodRow headers row) ↔
      ∀ row ∈ rows, GoodRow headers row.1 := by simp
  rw [same]
  refine ⟨?_, ?_, ?_⟩
  · intro good
    rw [read_records_good fields (everywhere.mpr good), List.map_map]
    rfl
  · intro bad
    exact read_records_bad fields (fun good => bad (everywhere.mp good)) .empty
  · intro row member name
    refine (SortedMap.get_insert_last (numbers (cells headers row.1)) ∅ name).trans ?_
    rw [SortedMap.get_empty, Option.or_none]

/-- Two columns of one name; the first region has a quote, a comma and a line break in its name, and the
last cell of the second row is empty. -/
def trickyRows : List Row :=
  [(["2020", "north,\n\"east\"", "1.5", "-2e3"], .feed), (["+2021", "", "inf", ""], .returnAndFeed)]

def faultyRows : List Row :=
  trickyRows ++ [(["2022", "x", "1", "one"], .feed), (["2023"], .feed)]

theorem tricky_table_is_read :
    (∀ row ∈ trickyRows, GoodRow ["reuse", "reuse"] row.1) ∧
    read (written ["reuse", "reuse"] .returnAndFeed trickyRows) =
      .ok (.ofRecords (trickyRows.map (fun row => recordOf ["reuse", "reuse"] row.1))) ∧
    (¬∀ row ∈ faultyRows, GoodRow ["reuse", "reuse"] row.1) ∧
    ∃ before row after fault, faultyRows.map Prod.fst = before ++ row :: after ∧
      (∀ earlier ∈ before, GoodRow ["reuse", "reuse"] earlier) ∧
      RowFault ["reuse", "reuse"] row fault ∧
      read (written ["reuse", "reuse"] .feed faultyRows) = .error fault := by
  have good : ∀ row ∈ trickyRows, GoodRow ["reuse", "reuse"] row.1 := by decide +kernel
  have bad : ¬∀ row ∈ faultyRows, GoodRow ["reuse", "reuse"] row.1 := by decide +kernel
  have headers : ∀ header ∈ ["reuse", "reuse"], Unpadded header := by decide
  have whole := written_baselines_are_read ["reuse", "reuse"] .returnAndFeed trickyRows headers
    (by decide) (by decide)
  have partly := written_baselines_are_read ["reuse", "reuse"] .feed faultyRows headers
    (by decide) (by decide)
  exact ⟨good, whole.1 good, bad, partly.2.1 bad⟩

end PolicyLevers.BaselineTable
