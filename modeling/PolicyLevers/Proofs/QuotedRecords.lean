import PolicyLevers.Csv.Records

/-!
# Quoted records are read back

A record is written with every field in quotes and every quote in a field doubled.  Whatever stands in
the fields, commas and line breaks included, reading gives the fields back, and the next record starts
behind the line end.
-/

namespace PolicyLevers.Csv

set_option autoImplicit false

inductive LineEnd where
  | feed
  | returnAndFeed
  deriving DecidableEq, Repr

def LineEnd.text : LineEnd → List Char
  | feed => ['\n']
  | returnAndFeed => ['\r', '\n']

def doubled (c : Char) : List Char := if c = '"' then ['"', '"'] else [c]

def quotedField (field : List Char) : List Char := '"' :: (field.flatMap doubled ++ ['"'])

def quotedFields : List (List Char) → List Char
  | [] => []
  | [field] => quotedField field
  | field :: next :: rest => quotedField field ++ ',' :: quotedFields (next :: rest)

def quotedRecord (fields : List (List Char)) (lineEnd : LineEnd) : List Char :=
  quotedFields fields ++ lineEnd.text

def quotedRecords (records : List (List (List Char) × LineEnd)) : List Char :=
  records.flatMap (fun record => quotedRecord record.1 record.2)

/-- Where a reader stands and which fields it has read, whatever lines it has counted. -/
structure Stands (progress : Progress) (mode : Mode) (field : List Char) (fields : List (List Char))
    (records : List (List (List Char))) : Prop where
  mode : progress.mode = mode
  field : progress.field = field
  fields : progress.fields = fields
  records : progress.records.map Record.fields = records

section Reading

variable {progress : Progress} {field : List Char} {fields : List (List Char)}
  {records : List (List (List Char))}

theorem start_stands : Stands .start .between [] [] [] := ⟨rfl, rfl, rfl, rfl⟩

theorem opening_quote_stands {mode : Mode} (stands : Stands progress mode field fields records)
    (first : mode = .between ∨ mode = .fieldStart) :
    Stands (progress.take '"') .quoted field fields records := by
  obtain ⟨rfl, rfl, rfl, rfl⟩ := stands
  rcases first with between | fieldStart
  · simp only [Progress.take, between]
    exact ⟨rfl, rfl, rfl, rfl⟩
  · simp only [Progress.take, fieldStart]
    exact ⟨rfl, rfl, rfl, rfl⟩

theorem character_stands (stands : Stands progress .quoted field fields records) (c : Char) :
    Stands ((doubled c).foldl Progress.take progress) .quoted (c :: field) fields records := by
  obtain ⟨mode, rfl, rfl, rfl⟩ := stands
  unfold doubled
  by_cases quote : c = '"'
  · subst quote
    simp only [if_true, List.foldl_cons, List.foldl_nil, Progress.take, mode]
    exact ⟨rfl, rfl, rfl, rfl⟩
  · simp only [quote, if_false, List.foldl_cons, List.foldl_nil, Progress.take, mode]
    by_cases feed : c = '\n' <;> simp only [feed, if_true, if_false] <;> exact ⟨rfl, rfl, rfl, rfl⟩

theorem content_stands (content : List Char) (stands : Stands progress .quoted field fields records) :
    Stands ((content.flatMap doubled).foldl Progress.take progress) .quoted (content.reverse ++ field)
      fields records := by
  induction content generalizing progress field with
  | nil => exact stands
  | cons c rest induction =>
      rw [List.flatMap_cons, List.foldl_append, List.reverse_cons, List.append_assoc]
      exact induction (character_stands stands c)

theorem closing_quote_stands (stands : Stands progress .quoted field fields records) :
    Stands (progress.take '"') .quoteSeen field fields records := by
  obtain ⟨mode, rfl, rfl, rfl⟩ := stands
  simp only [Progress.take, mode]
  exact ⟨rfl, rfl, rfl, rfl⟩

theorem field_stands (content : List Char) {mode : Mode}
    (stands : Stands progress mode [] fields records) (first : mode = .between ∨ mode = .fieldStart) :
    Stands ((quotedField content).foldl Progress.take progress) .quoteSeen content.reverse fields
      records := by
  rw [quotedField, List.foldl_cons, List.foldl_append]
  have opened := opening_quote_stands stands first
  have read := content_stands content opened
  rw [List.append_nil] at read
  exact closing_quote_stands read

theorem comma_stands (stands : Stands progress .quoteSeen field fields records) :
    Stands (progress.take ',') .fieldStart [] (field.reverse :: fields) records := by
  obtain ⟨mode, rfl, rfl, rfl⟩ := stands
  simp only [Progress.take, mode]
  exact ⟨rfl, rfl, rfl, rfl⟩

/-- The feed behind a return belongs to no record. -/
theorem line_end_stands (stands : Stands progress .quoteSeen field fields records) (lineEnd : LineEnd) :
    Stands (lineEnd.text.foldl Progress.take progress) .between [] []
      ((field.reverse :: fields).reverse :: records) := by
  obtain ⟨mode, rfl, rfl, rfl⟩ := stands
  cases lineEnd with
  | feed =>
      simp only [LineEnd.text, List.foldl_cons, List.foldl_nil, Progress.take, mode]
      exact ⟨rfl, rfl, rfl, rfl⟩
  | returnAndFeed =>
      have ended : (progress.take '\r').mode = .between := by
        simp only [Progress.take, mode]
        rfl
      simp only [LineEnd.text, List.foldl_cons, List.foldl_nil]
      rw [Progress.take]
      simp only [ended]
      simp only [Progress.take, mode]
      exact ⟨rfl, rfl, rfl, rfl⟩

theorem fields_stand {content : List (List Char)} (visible : content ≠ []) {mode : Mode}
    (stands : Stands progress mode [] fields records) (first : mode = .between ∨ mode = .fieldStart) :
    ∃ field others, (field.reverse :: others).reverse = fields.reverse ++ content ∧
      Stands ((quotedFields content).foldl Progress.take progress) .quoteSeen field others records := by
  induction content generalizing progress fields mode with
  | nil => exact absurd rfl visible
  | cons head rest induction =>
      cases rest with
      | nil => exact ⟨head.reverse, fields, by simp, field_stands head stands first⟩
      | cons next rest =>
          rw [quotedFields, List.foldl_append, List.foldl_cons]
          have separated := comma_stands (field_stands head stands first)
          obtain ⟨field, others, all, read⟩ :=
            induction (List.cons_ne_nil next rest) separated (.inr rfl)
          exact ⟨field, others, by simpa using all, read⟩

theorem record_stands {content : List (List Char)} (visible : content ≠ []) (lineEnd : LineEnd)
    (stands : Stands progress .between [] [] records) :
    Stands ((quotedRecord content lineEnd).foldl Progress.take progress) .between [] []
      (content :: records) := by
  obtain ⟨field, others, all, read⟩ := fields_stand visible stands (.inl rfl)
  have ended := line_end_stands read lineEnd
  rw [all] at ended
  rw [quotedRecord, List.foldl_append]
  exact ended

theorem records_stand {content : List (List (List Char) × LineEnd)}
    (visible : ∀ record ∈ content, record.1 ≠ []) (stands : Stands progress .between [] [] records) :
    Stands ((quotedRecords content).foldl Progress.take progress) .between [] []
      ((content.map Prod.fst).reverse ++ records) := by
  induction content generalizing progress records with
  | nil => exact stands
  | cons record rest induction =>
      rw [quotedRecords, List.flatMap_cons, List.foldl_append, List.map_cons, List.reverse_cons,
        List.append_assoc]
      exact induction (fun later member => visible later (by simp [member]))
        (record_stands (visible record (by simp)) record.2 stands)

end Reading

theorem quoted_unmarked (records : List (List (List Char) × LineEnd))
    (visible : ∀ record ∈ records, record.1 ≠ []) :
    dropMark (quotedRecords records) = quotedRecords records := by
  cases records with
  | nil => rfl
  | cons record rest =>
      obtain ⟨fields, lineEnd⟩ := record
      cases fields with
      | nil => exact absurd rfl (visible ([], lineEnd) (by simp))
      | cons field others => cases others <;> rfl

/-- Quoted records are read with the fields they were written with. -/
theorem quoted_records_read (content : List (List (List Char) × LineEnd))
    (visible : ∀ record ∈ content, record.1 ≠ []) :
    (records (quotedRecords content)).map Record.fields = content.map Prod.fst := by
  have stands := records_stand visible start_stands
  rw [List.append_nil] at stands
  unfold records
  rw [quoted_unmarked content visible, Progress.finish, stands.mode]
  dsimp only
  rw [List.map_reverse, stands.records, List.reverse_reverse]

end PolicyLevers.Csv
